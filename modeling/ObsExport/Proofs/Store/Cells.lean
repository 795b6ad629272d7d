import ObsExport.Proofs.Store.Writing
import ObsExport.Store.Cells

/-!
# Stores kept in place are stores

Cells hold a store if the index gives the first place of every name, the column names are those of
all columns, and the number of records is that of the store (`Cells.Holds`). A variable is then found
in the cells as it is in the store (`Holds.find?_eq`).

Cells that hold a store answer a variable as the store does (`Holds.offer_eq`): what the store
refuses they refuse with the same failure and before any of them was changed, and otherwise they
hold the store with the variable behind the others (`Holds.grown`).
-/

namespace ObsExport

namespace Store

namespace Cells

/-- The cells belong together, and to a store. -/
structure Holds (c : Cells) (s : Store) : Prop where
  vars : c.vars = s.vars
  index : ∀ name, c.index.find? name = s.vars.findIdx? fun v => v.name = name
  columnNames : ∀ name, name ∈ c.columnNames ↔ name ∈ s.columnNames
  rows : c.rows? = s.rows?

theorem holds_empty : empty.Holds Store.empty :=
  ⟨rfl, fun _ => rfl, fun _ => Iff.rfl, rfl⟩

/-- The cells with one more variable. -/
def grown (c : Cells) (v : StoredVariable) : Cells :=
  ⟨c.vars ++ [v], c.index.insert v.name c.vars.length, c.columnNames ++ v.columns.map Column.name,
    some v.rowCount⟩

variable {α : Type} {c : Cells} {s : Store} {v : StoredVariable}

/-! ### Steps -/

theorem run_get_bind (f : Cells → Step α) : (get >>= f).run.run c = (f c).run.run c := rfl

theorem run_refuse_some_bind (e : Error) (f : Unit → Step α) :
    (refuse (some e) >>= f).run.run c = (.error e, c) := rfl

theorem run_refuse_none_bind (f : Unit → Step α) :
    (refuse none >>= f).run.run c = (f ()).run.run c := rfl

/-- Cells with another number of records are not changed. -/
theorem run_takeRows_bind_of_ne {rows : Nat} (h : c.rows? = some rows) (hne : rows ≠ v.rowCount)
    (f : Unit → Step α) :
    (takeRows v >>= f).run.run c = (.error (.shape v.name (.storeRows v.rowCount rows)), c) := by
  rw [takeRows, bind_assoc, run_get_bind, h]
  dsimp only
  rw [if_pos hne, run_refuse_some_bind]

/-- Cells whose number of records is that of the variable, or that have none yet, take it. -/
theorem run_takeRows_bind (h : ∀ rows, c.rows? = some rows → rows = v.rowCount)
    (f : Unit → Step α) :
    (takeRows v >>= f).run.run c = (f ()).run.run { c with rows? := some v.rowCount } := by
  rw [takeRows, bind_assoc, run_get_bind]
  cases hrows : c.rows? with
  | none => rfl
  | some rows =>
    have hsame : { c with rows? := some v.rowCount } = c := by rw [← h rows hrows, ← hrows]
    dsimp only
    rw [if_neg (Decidable.not_not.2 (h rows hrows)), run_refuse_none_bind, hsame]

namespace Holds

/-- A variable is found through the index as it is by going through the store. -/
theorem find?_eq (h : c.Holds s) (name : String) : c.find? name = s.find? name := by
  rw [Cells.find?, Store.find?, h.index, h.vars, List.find?_eq_bind_findIdx?_getElem?]

/-- The index has the names of the store. -/
theorem contains_iff (h : c.Holds s) {name : String} :
    c.index.contains name = true ↔ name ∈ s.names := by
  rw [Dict.contains, h.index, List.findIdx?_isSome, List.any_eq_true, names, List.mem_map]
  exact exists_congr fun w => and_congr_right fun _ => by rw [decide_eq_true_eq]

theorem find?_column (h : c.Holds s) (columns : List Column) :
    (columns.find? fun d => d.name ∈ c.columnNames) =
      columns.find? fun d => d.name ∈ s.columnNames := by
  congr 1
  funext d
  rw [decide_eq_decide]
  exact h.columnNames d.name

/-- Cells answer as the store that they hold, and are changed only if they take the variable. -/
theorem offer_eq (h : c.Holds s) (v : StoredVariable) :
    c.offer v =
      match s.refusal? v with
      | some e => (.error e, c)
      | none => (.ok (), c.grown v) := by
  unfold offer write refusal?
  -- One case for each reason to refuse, in the order in which they are checked.
  rw [run_get_bind, h.find?_column]
  by_cases hname : v.name ∈ s.names
  · rw [if_pos (h.contains_iff.2 hname), if_pos hname, run_refuse_some_bind]
  rw [if_neg (mt h.contains_iff.1 hname), if_neg hname, run_refuse_none_bind]
  cases v.columns.find? fun d => d.data.size ≠ v.rowCount with
  | some d => rw [Option.map_some, run_refuse_some_bind]
  | none =>
    rw [Option.map_none, run_refuse_none_bind]
    cases v.columns.find? fun d => d.name ∈ s.columnNames with
    | some d => rw [Option.map_some, run_refuse_some_bind]
    | none =>
      rw [Option.map_none, run_refuse_none_bind]
      -- Only the last check has two ways to pass: no records yet, or the same number.
      cases hrows : s.rows? with
      | none =>
        rw [run_takeRows_bind (by simp [h.rows, hrows])]
        rfl
      | some rows =>
        dsimp only
        by_cases hne : rows ≠ v.rowCount
        · rw [if_pos hne, run_takeRows_bind_of_ne (h.rows.trans hrows) hne]
        · have heq : ∀ rows, c.rows? = some rows → rows = v.rowCount := by
            rw [h.rows, hrows]
            simpa using hne
          rw [if_neg hne, run_takeRows_bind heq]
          rfl

/-- Cells that take a variable hold the store with that variable. -/
theorem grown (h : c.Holds s) (hnone : s.refusal? v = none) :
    (c.grown v).Holds ⟨s.vars ++ [v]⟩ := by
  obtain ⟨hname, -, -, hrows⟩ := refusal?_eq_none_iff.1 hnone
  -- The index is the only cell that is not appended to.
  refine ⟨?vars, fun name => ?index, fun name => ?columnNames, ?rows⟩
  case vars =>
    show c.vars ++ [v] = s.vars ++ [v]
    rw [h.vars]
  case index =>
    show (c.index.insert v.name c.vars.length).find? name = _
    rw [Dict.find?_insert, h.index, h.vars, List.findIdx?_append, List.findIdx?_singleton]
    by_cases heq : name = v.name
    · -- The name is new, so the last variable is the first one with it.
      have hnew : (s.vars.findIdx? fun w => w.name = name) = none := by
        rw [List.findIdx?_eq_none_iff]
        intro w hw
        rw [decide_eq_false_iff_not]
        rintro rfl
        exact hname (heq ▸ List.mem_map.2 ⟨w, hw, rfl⟩)
      rw [hnew, if_pos heq, if_pos (by simp [heq])]
      simp
    · rw [if_neg heq, if_neg (by simpa using Ne.symm heq)]
      simp
  case columnNames =>
    show name ∈ c.columnNames ++ v.columns.map Column.name ↔ _
    rw [List.mem_append, h.columnNames, Store.columnNames, Store.columnNames, columns, columns,
      List.flatMap_append, List.map_append, List.mem_append, List.flatMap_singleton]
  case rows =>
    show some v.rowCount = (s.vars ++ [v]).head?.map StoredVariable.rowCount
    -- An empty store takes the number from the variable, any other has it already.
    cases hvars : s.vars with
    | nil => rfl
    | cons first later =>
      have hfirst : s.rows? = some first.rowCount := by
        rw [Store.rows?, hvars]
        rfl
      rw [← hrows _ hfirst]
      rfl

end Holds

end Cells

end Store

end ObsExport
