import ObsExport.Batch.Repeats

/-!
# Readings

A reading is what a decoder found for one field in one record: its leaves, numeric or textual, how
often the groups around it repeat, and which groups these are. A field that was looked for and not
found has a reading too, flagged as missing.

`Reading.fault?` finds what is wrong with a reading by itself: group identifiers that do not match
the levels, counts that do not fit together, leaves that are not as many as the counts imply.
-/

namespace ObsExport

/-- The leaf values of a field in one record, or of several records in a row. -/
inductive Leaves where
  | numeric (values : List Float)
  | text (values : List String)
deriving DecidableEq

namespace Leaves

/-- The number of leaves. -/
def size : Leaves → Nat
  | numeric values => values.length
  | text values => values.length

/-- Whether the leaves are texts. -/
def isText : Leaves → Bool
  | numeric _ => false
  | text _ => true

/-- The numbers; texts are none. -/
def numbers : Leaves → List Float
  | numeric values => values
  | text _ => []

/-- The texts; numbers are none. -/
def texts : Leaves → List String
  | numeric _ => []
  | text values => values

end Leaves

/-- One field in one record. -/
structure Reading where
  name : String
  /-- What the decoder was asked for. -/
  query : String
  leaves : Leaves
  /-- Whether the decoder did not find the field. -/
  flagged : Bool
  /-- The repeated group behind each level, outermost first. -/
  path : List Nat
  repeats : Repeats
  dimPaths : List String
deriving DecidableEq

namespace Reading

/-- One number outside repeated groups. -/
def scalar (name : String) (value : Float) : Reading :=
  ⟨name, name, .numeric [value], false, [], .none, []⟩

/-- One text outside repeated groups. -/
def text (name value : String) : Reading :=
  ⟨name, name, .text [value], false, [], .none, []⟩

/-- A field inside repeated groups. -/
def repeated (name : String) (leaves : Leaves) (path : List Nat) (repeats : Repeats) : Reading :=
  ⟨name, name, leaves, false, path, repeats, []⟩

/-- A field that was not found. -/
def absent (name : String) : Reading := ⟨name, name, .numeric [], true, [], .none, []⟩

/-- The number of levels. -/
def depth (r : Reading) : Nat := r.repeats.depth

/-- What is wrong with a reading by itself. Only a reading that was found must have the leaves that
its counts imply. -/
def fault? (r : Reading) : Option StructureFault :=
  if r.path.length ≠ r.depth then some (.levelIds r.path.length r.depth)
  else
    match r.repeats.firstFault? with
    | some fault => some fault
    | none =>
      if !r.flagged && r.leaves.size != r.repeats.leafCount then
        some (.leafCount r.leaves.size r.repeats.leafCount)
      else none

/-- A reading with one group per level, counts that fit together, and leaves to match. -/
def Consistent (r : Reading) : Prop :=
  r.path.length = r.depth ∧ r.repeats.Consistent ∧
    (r.flagged = false → r.leaves.size = r.repeats.leafCount)

/-- A reading is taken without complaint exactly if its parts fit together. -/
theorem fault?_eq_none_iff {r : Reading} : r.fault? = none ↔ r.Consistent := by
  unfold fault? Consistent
  split
  next h => simp [h]
  next h =>
    have hpath : r.path.length = r.depth := Decidable.not_not.1 h
    split
    next fault hf =>
      have hc : ¬ r.repeats.Consistent := by simp [← Repeats.firstFault?_eq_none_iff, hf]
      simp [hc]
    next hf =>
      have hc : r.repeats.Consistent := Repeats.firstFault?_eq_none_iff.1 hf
      cases r.flagged <;> simp [hpath, hc]

/-- How many enclosing groups two readings share, from the outermost inward. -/
def shared (a b : Reading) : Nat :=
  ((a.path.zip b.path).takeWhile fun p => p.1 == p.2).length

/-- Whether two readings give the groups that they share the same counts. -/
def agrees (a b : Reading) : Bool :=
  a.repeats.levels.take (shared a b) == b.repeats.levels.take (shared a b)

end Reading

end ObsExport
