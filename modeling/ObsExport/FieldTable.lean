import ObsExport.Dict
import ObsExport.Values

/-!
# A batch as a table of fields

A `FieldTable` maps field names to values, in name order. The batch has as many records as the
first field; `FieldTable.checkRows` is what makes sure that the others agree.
-/

namespace ObsExport

/-- The fields of a batch by name. -/
abbrev FieldTable := Dict String Values

namespace FieldTable

/-- The number of records of the first field; an empty table has none. -/
def rowCount (t : FieldTable) : Nat := (t.values.head?.map Values.height).getD 0

/-- The first field, in name order, that does not have a number of records. -/
def firstUneven (rows : Nat) (t : FieldTable) : Option (String × Nat) :=
  (t.entries.find? fun e => e.2.height ≠ rows).map fun e => (e.1, e.2.height)

/-- The number of records of all fields, if they agree. -/
def checkRows (t : FieldTable) : Except Error Nat :=
  match t.firstUneven t.rowCount with
  | some (name, found) => .error (.shape name (.batchRows found t.rowCount))
  | none => .ok t.rowCount

/-- Asks for a list with an entry per record. There is room for it if one of some fields has as many
values; only fields without columns can count more records. -/
def reserveRows (t : FieldTable) (names : List String) (entry : Size.Entry) : Except Error Unit :=
  if names.any fun name => (t.find? name).any fun values => t.rowCount ≤ values.stored then .ok ()
  else Size.reserve entry t.rowCount

/-- The table of the listed records. -/
def select (t : FieldTable) (indices : List Nat) : Except Error FieldTable :=
  t.mapM fun _ values => values.select indices

/-- Whether every field has a number of records. -/
def Aligned (t : FieldTable) (rows : Nat) : Prop := ∀ e ∈ t.entries, e.2.height = rows

/-- No field is reported exactly if all of them have the number of records. -/
theorem firstUneven_eq_none_iff {rows : Nat} {t : FieldTable} :
    t.firstUneven rows = none ↔ t.Aligned rows := by
  simp [firstUneven, Aligned, Option.map_eq_none_iff]

/-- The records of a table are counted if every field has as many as the first one. -/
theorem checkRows_eq_ok_iff {t : FieldTable} {rows : Nat} :
    t.checkRows = .ok rows ↔ rows = t.rowCount ∧ t.Aligned t.rowCount := by
  unfold checkRows
  cases h : t.firstUneven t.rowCount with
  | none => simp [firstUneven_eq_none_iff.1 h, eq_comm]
  | some e =>
    have : ¬ t.Aligned t.rowCount := fun ha => by simp [firstUneven_eq_none_iff.2 ha] at h
    simp [this]

/-- A numeric field with columns has as many values as there are records, or more. -/
theorem reserveRows_of_cols {t : FieldTable} {names : List String} {name : String} {grid : Grid}
    (haligned : t.Aligned t.rowCount) (hname : name ∈ names)
    (hfind : t.find? name = some (.numeric grid)) (hcols : 0 < grid.cols) (entry : Size.Entry) :
    t.reserveRows names entry = .ok () := by
  have hheight : grid.height = t.rowCount := haligned _ (Dict.mem_entries_iff.2 hfind)
  have hstored : t.rowCount ≤ grid.values.length := by
    rw [grid.length_values, ← hheight]
    exact Nat.le_mul_of_pos_right _ hcols
  rw [reserveRows, if_pos]
  refine List.any_eq_true.2 ⟨name, hname, ?_⟩
  rw [hfind]
  exact decide_eq_true hstored

end FieldTable

end ObsExport
