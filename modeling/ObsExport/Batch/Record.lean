import ObsExport.Batch.Reading

/-!
# Records

A record holds at most one reading per field, in the order in which they were added. Fields inside
the same repeated groups repeat together, so the readings of a record that were found must agree on
the counts of the groups that they share. `Record.fault?` finds the first reading of which that is
not true, and `Record.Consistent` says that there is none.
-/

namespace ObsExport

/-- The readings of one record, no two of one field. -/
@[ext] structure Record where
  readings : List Reading
  distinct : (readings.map Reading.name).Nodup
deriving DecidableEq

namespace Record

/-- The record without readings. -/
def empty : Record := ⟨[], by simp⟩

/-- The reading of a field, flagged or not. -/
def find? (r : Record) (name : String) : Option Reading :=
  r.readings.find? fun reading => reading.name = name

/-- The reading of a field that was found. -/
def observed? (r : Record) (name : String) : Option Reading :=
  (r.find? name).filter fun reading => !reading.flagged

/-- Adds a reading, unless its field has one. -/
def add (r : Record) (reading : Reading) : Except Error Record :=
  if h : reading.name ∈ r.readings.map Reading.name then
    .error (.duplicateName .field reading.name)
  else
    .ok ⟨r.readings ++ [reading], by
      rw [List.map_append, List.nodup_append]
      refine ⟨r.distinct, by simp, fun a ha b hb => ?_⟩
      rintro rfl
      simp only [List.map_cons, List.map_nil, List.mem_singleton] at hb
      exact h (hb ▸ ha)⟩

/-- The record of some readings. -/
def ofList (readings : List Reading) : Except Error Record := readings.foldlM add empty

/-- The first of some readings that disagrees with one before it, with the name of that one. -/
def siblingFault? : List Reading → Option (String × StructureFault)
  | [] => none
  | a :: later =>
    match later.find? fun b => !a.agrees b with
    | some b => some (b.name, .siblingCounts a.name)
    | none => siblingFault? later

/-- The first reading that is wrong by itself, or else the first that disagrees with another. -/
def fault? (r : Record) : Option (String × StructureFault) :=
  match r.readings.findSome? fun reading => reading.fault?.map fun f => (reading.name, f) with
  | some fault => some fault
  | none => siblingFault? (r.readings.filter fun reading => !reading.flagged)

/-- Every reading is right by itself, and those that were found agree with each other. -/
def Consistent (r : Record) : Prop :=
  (∀ reading ∈ r.readings, reading.Consistent) ∧
    (r.readings.filter fun reading => !reading.flagged).Pairwise fun a b => a.agrees b = true

/-- No pair is reported exactly if every reading agrees with all that come after it. -/
theorem siblingFault?_eq_none_iff {l : List Reading} :
    siblingFault? l = none ↔ l.Pairwise fun a b => a.agrees b = true := by
  induction l with
  | nil => simp [siblingFault?]
  | cons a later ih =>
    rw [siblingFault?, List.pairwise_cons, ← ih]
    -- The first reading is held against all later ones before the next one is.
    cases h : later.find? fun b => !a.agrees b with
    | none =>
      have := List.find?_eq_none.1 h
      simp only [Bool.not_eq_true, Bool.not_eq_false'] at this
      simpa using fun _ => this
    | some b =>
      have hb : a.agrees b = false := by simpa using List.find?_some h
      have hmem := List.mem_of_find?_eq_some h
      simp only [reduceCtorEq, false_iff, not_and]
      intro hall
      exact absurd (hall b hmem) (by simp [hb])

/-- A record is taken without complaint exactly if its readings fit, each by itself and any two of
those that count. -/
theorem fault?_eq_none_iff {r : Record} : r.fault? = none ↔ r.Consistent := by
  unfold fault? Consistent
  cases h : r.readings.findSome? fun reading => reading.fault?.map fun f => (reading.name, f) with
  | some fault =>
    simp only [reduceCtorEq, false_iff, not_and]
    intro hall
    obtain ⟨reading, hmem, hf⟩ := List.exists_of_findSome?_eq_some h
    rw [Reading.fault?_eq_none_iff.2 (hall reading hmem)] at hf
    simp at hf
  | none =>
    have hall : ∀ reading ∈ r.readings, reading.Consistent := fun reading hmem =>
      Reading.fault?_eq_none_iff.1
        (Option.map_eq_none_iff.1 (List.findSome?_eq_none_iff.1 h _ hmem))
    simp only [siblingFault?_eq_none_iff]
    exact ⟨fun hp => ⟨hall, hp⟩, fun hp => hp.2⟩

end Record

end ObsExport
