import ObsExport.FieldTable

/-!
# Observations of records

Splits and timestamps look at one value of every record, the one in the first column of a field
(`FieldTable.firstAt`). The record observes it (`FieldTable.Observes`) if the field is numeric and the
policy does not take the value for missing.
-/

namespace ObsExport

namespace Grid

theorem cell?_ofColumn (xs : List Float) (row : Nat) :
    (ofColumn xs).cell? row 0 = xs[row]? := by
  rw [← getElem?_values _ _ (show 0 < (ofColumn xs).cols from Nat.one_pos)]
  show xs[row * 1 + 0]? = xs[row]?
  rw [Nat.mul_one, Nat.add_zero]

/-- Where there is a column, every row has a first value, and what is computed of it is what is
computed of the cell in the first column. -/
theorem mapM_first_rows {α : Type} {g : Grid} (hcols : 0 < g.cols) {f : Float → α} {h : Nat → α}
    (hcell : ∀ row x, g.cell? row 0 = some x → h row = f x) :
    (g.rows.mapM fun values => (required values[0]?).map f) =
      .ok ((List.range g.height).map h) := by
  refine mapM_eq_ok_iff.2 ⟨by simp, fun row values hvalues => ?_⟩
  have hrow : row < g.height := by
    rw [← g.length_rows]
    exact (List.getElem?_eq_some_iff.1 hvalues).1
  obtain ⟨x, hx⟩ := Option.isSome_iff_exists.1 (cell?_isSome_iff.2 ⟨hrow, hcols⟩)
  refine ⟨f x, by simp [hrow, hcell row x hx], ?_⟩
  rw [← g.getElem?_rows, hvalues, Option.bind_some] at hx
  rw [hx]
  rfl

end Grid

namespace Values

/-- The number of a record in the first column. -/
def numberAt (values : Values) (row : Nat) : Option Float :=
  values.grid?.bind fun grid => grid.cell? row 0

/-- The text of a record. -/
def textAt (values : Values) (row : Nat) : Option String :=
  values.texts?.bind fun entries => entries[row]?

end Values

namespace FieldTable

/-- The number of a record in the first column of a field. -/
def firstAt (t : FieldTable) (field : String) (row : Nat) : Option Float :=
  (t.find? field).bind fun values => values.numberAt row

/-- A record has an observed value in the first column of a field. -/
def Observes (t : FieldTable) (policy : MissingPolicy) (row : Nat) (field : String) (x : Float) :
    Prop :=
  ∃ grid, t.find? field = some (.numeric grid) ∧ grid.cell? row 0 = some x ∧
    policy.isPresent x = true

variable {t : FieldTable} {policy : MissingPolicy} {row : Nat} {field : String} {x y : Float}
  {grid : Grid}

theorem firstAt_of_numeric (h : t.find? field = some (.numeric grid)) :
    t.firstAt field row = grid.cell? row 0 := by
  rw [firstAt, h]
  rfl

/-- The first value of a record stands in the first column of a numeric field. -/
theorem firstAt_eq_some_iff :
    t.firstAt field row = some x ↔
      ∃ grid, t.find? field = some (.numeric grid) ∧ grid.cell? row 0 = some x := by
  rw [firstAt, Option.bind_eq_some_iff]
  constructor
  · rintro ⟨values, hfind, hvalue⟩
    cases values with
    | text entries => contradiction
    | numeric grid => exact ⟨grid, hfind, hvalue⟩
  · rintro ⟨grid, hfind, hcell⟩
    exact ⟨.numeric grid, hfind, hcell⟩

/-- An observation is a first value that is not missing. -/
theorem observes_iff :
    t.Observes policy row field x ↔
      t.firstAt field row = some x ∧ policy.isPresent x = true := by
  rw [firstAt_eq_some_iff]
  constructor
  · rintro ⟨grid, hfind, hcell, hpresent⟩
    exact ⟨⟨grid, hfind, hcell⟩, hpresent⟩
  · rintro ⟨⟨grid, hfind, hcell⟩, hpresent⟩
    exact ⟨grid, hfind, hcell, hpresent⟩

/-- A record observes one value in a field. -/
theorem Observes.unique (hx : t.Observes policy row field x) (hy : t.Observes policy row field y) :
    x = y := by
  have hfirst := (observes_iff.1 hx).1
  rw [(observes_iff.1 hy).1] at hfirst
  exact (Option.some.inj hfirst).symm

end FieldTable

end ObsExport
