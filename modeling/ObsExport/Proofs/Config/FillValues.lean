import ObsExport.Proofs.Config.Loaded
import ObsExport.Proofs.Number.NotNaN

/-!
# Fill values of a document

The reals of a document are finite and its integers are read as the nearest number, so no value of
a document is read as NaN, and every number that is read is equal to itself
(`Tree.beq_self_of_asFloat?`). So are the fill values of the layout (`Pipeline.fillable_of_ofTree`),
which is what it takes to find them again in a column.
-/

namespace ObsExport

/-- A number that is read from a document equals itself, since documents cannot write NaN. -/
theorem Tree.beq_self_of_asFloat? {t : Tree} {x : Float} (h : t.asFloat? = some x) :
    (x == x) = true := by
  cases t with
  | integer i => exact Option.some.inj h ▸ Number.beq_self_of_not_isNaN (Number.isNaN_ofInt i)
  | real y finite =>
    have hnan : y.isNaN = false := Number.isNaN_of_isFinite finite
    exact Option.some.inj h ▸ Number.beq_self_of_not_isNaN hnan
  | _ => simp [asFloat?] at h

/-- The fill value of an output variable is equal to itself. -/
def OutputVariable.Fillable (o : OutputVariable) : Prop :=
  ∀ f, o.options.fillValue = some f → (f == f) = true

/-- Every variable of a layout that was read has a fill value that is equal to itself, if any. -/
theorem Layout.fillable_of_ofConfig {c : Cursor} {e : Export} {s : Settings} {l : Layout}
    (h : (ofConfig c e s).outcome = .ok l) : ∀ o ∈ l.outputs, o.Fillable := by
  obtain ⟨⟨w, hw, rfl⟩, -⟩ := ofConfig_eq_ok_iff.1 h
  obtain ⟨items, -, hpaired⟩ := hw.outputs
  intro _ ho f hf
  -- The variable is stated by an item of the list, with this fill value.
  obtain ⟨o, hmem, rfl⟩ := List.mem_map.1 ho
  obtain ⟨item, -, hstated⟩ := exists_of_forall₂ hpaired hmem
  have hfill : item.StatesAt "fillValue" (fun v x => v.asFloat? = some x) (some f) :=
    hf ▸ hstated.fillValue
  cases hfill with
  | present _ hv => exact Tree.beq_self_of_asFloat? hv

/-- Every output variable of a pipeline that was read has a fill value that is equal to itself, if
any. -/
theorem Pipeline.fillable_of_ofTree {t : Tree} {p : Pipeline}
    (h : (Pipeline.ofTree t).outcome = .ok p) : ∀ o ∈ p.layout.outputs, o.Fillable := by
  obtain ⟨-, -, -, -, _, -, hlayout⟩ := ofTree_eq_ok_iff.1 h
  exact Layout.fillable_of_ofConfig hlayout

end ObsExport
