import ObsExport.Export
import ObsExport.Proofs.Config.Fields

/-!
# Writing exports

An export is written as the tree that a document has for it: filters, splits and variables under
their keys, each block in the shape its section asks for. The grammar leaves some choices open, and
a `Spelling` makes them: whether the code in front of a partition name has an underscore, whether a
value that is the default anyway is written, and whether a whole number is written as an integer or
as a real. Keys of optional values that are not there are left out, as are empty filters and splits.

An export can be written if its numbers can (`Export.Writable`): bounds and operands must be finite,
since a document has no others, and codes and shifts must lie in the ranges they are read in.
-/

namespace ObsExport

/-! ### Spellings -/

/-- The choices that the grammar of exports leaves open. -/
structure Spelling where
  /-- Whether the code of a category has an underscore in front, by split and code. -/
  underscored : String → Int → Bool
  /-- Whether values are written that stand for a missing key anyway. -/
  explicit : Bool
  /-- How a number is written. -/
  number : Float → Tree
  asFloat?_number : ∀ x, Binary.isFinite x = true → (number x).asFloat? = some x

namespace Spelling

/-- Bare codes, no defaults, and every number a real. -/
def plain : Spelling where
  underscored _ _ := false
  explicit := false
  number := .ofFloat
  asFloat?_number x hx := by
    rw [Tree.ofFloat, dif_pos hx]
    rfl

/-- Negative codes behind an underscore, all defaults, and whole numbers as integers. -/
def elaborate : Spelling where
  underscored _ code := decide (code < 0)
  explicit := true
  number x :=
    let i := ((Binary.ofFloat? x).map Binary.round).getD 0
    if Float.ofInt i = x then .integer i else .ofFloat x
  asFloat?_number x hx := by
    dsimp only
    split
    next h => exact congrArg some h
    next => exact plain.asFloat?_number x hx

variable (w : Spelling)

/-- What is written for a value that may be a default. -/
def unlessDefault (isDefault : Bool) (t : Tree) : Option Tree :=
  if isDefault && !w.explicit then none else some t

/-- The key of a category code. -/
def codeKey (split : String) (code : Int) : String :=
  if w.underscored split code then "_" ++ toString code else toString code

end Spelling

/-! ### Writers -/

section Writers

variable (w : Spelling)

/-- The fields of a bounding block. -/
def Filter.toFields (f : Filter) : List (String × Option Tree) := [
  ("mnemonic", some (.string f.mnemonic)),
  ("lowerBound", f.lower.map w.number),
  ("upperBound", f.upper.map w.number)]

/-- An item of the list of filters. -/
def Filter.toTree (f : Filter) : Tree :=
  .ofFields [("bounding", some (.ofFields (f.toFields w)))]

/-- The entries of the table of a category block. -/
def Split.writtenNames (name : String) (s : Split) : List (String × Tree) :=
  s.names.entries.map fun p => (w.codeKey name p.1, .string p.2)

/-- The fields of a category block. -/
def Split.toFields (name : String) (s : Split) : List (String × Option Tree) := [
  ("mnemonic", some (.string s.mnemonic)),
  ("map", w.unlessDefault s.names.entries.isEmpty (.ofEntries (s.writtenNames w name)))]

/-- An entry of the map of splits. -/
def Split.toTree (name : String) (s : Split) : Tree :=
  .ofFields [("category", some (.ofFields (s.toFields w name)))]

/-- A step of a chain. -/
def Transform.toTree : Transform → Tree
  | scale factor => .ofFields [("scale", some (w.number factor))]
  | offset amount => .ofFields [("offset", some (w.number amount))]

/-- The fields of a variable that is read from candidates. -/
def Candidates.toFields (c : Candidates) : List (String × Option Tree) := [
  ("mnemonic", some (.list (c.names.map .string))),
  ("transforms", w.unlessDefault c.transforms.isEmpty (.list (c.transforms.map (·.toTree w))))]

/-- The fields that say what a timestamp is composed from. -/
def TimeSource.toFields : TimeSource → List (String × Option Tree)
  | components year month day hour minute second => [
    ("year", some (.string year)),
    ("month", some (.string month)),
    ("day", some (.string day)),
    ("hour", some (.string hour)),
    ("minute", minute.map .string),
    ("second", second.map .string)]
  | epoch field => [("epoch", some (.string field))]

/-- The name of a format. -/
def TimeFormat.name : TimeFormat → String
  | epochSeconds => "epoch"
  | iso8601 => "iso8601"

/-- The fields of a timestamp block. -/
def Timestamp.toFields (t : Timestamp) : List (String × Option Tree) := t.source.toFields ++ [
  ("hoursFromUtc", w.unlessDefault (t.hoursFromUtc == 0) (.integer t.hoursFromUtc)),
  ("format", some (.string t.format.name))]

/-- The fields of a variable. -/
def Variable.toFields : Variable → List (String × Option Tree)
  | candidates c => c.toFields w
  | timestamp t => [("datetime", some (.ofFields (t.toFields w)))]

/-- The block of a variable. -/
def Variable.toTree (v : Variable) : Tree := .ofFields (v.toFields w)

/-- The entries of the map of splits. -/
def Export.writtenSplits (e : Export) : List (String × Tree) :=
  e.splits.entries.map fun s => (s.1, s.2.toTree w s.1)

/-- The entries of the map of variables. -/
def Export.writtenVars (e : Export) : List (String × Tree) :=
  e.vars.entries.map fun v => (v.1, v.2.toTree w)

/-- The fields of an export. Filters and splits are left out if there are none. -/
def Export.toFields (e : Export) : List (String × Option Tree) := [
  ("filters", if e.filters = [] then none else some (.list (e.filters.map (·.toTree w)))),
  ("splits", if e.splits.entries = [] then none else some (.ofEntries (e.writtenSplits w))),
  ("variables", some (.ofEntries (e.writtenVars w)))]

/-- The section of an export. -/
def Export.toTree (e : Export) : Tree := .ofFields (e.toFields w)

end Writers

/-! ### What can be written -/

/-- A filter whose bounds are finite. -/
def Filter.Writable (f : Filter) : Prop :=
  (∀ x ∈ f.lower, Binary.isFinite x = true) ∧ ∀ x ∈ f.upper, Binary.isFinite x = true

/-- A split whose codes fit a signed 64-bit word. -/
def Split.Writable (s : Split) : Prop := ∀ p ∈ s.names.entries, InWord p.1

/-- The number a step has. -/
def Transform.operand : Transform → Float
  | scale factor => factor
  | offset amount => amount

/-- A variable with finite operands and a shift of a day at most. -/
def Variable.Writable : Variable → Prop
  | candidates c => ∀ t ∈ c.transforms, Binary.isFinite t.operand = true
  | timestamp t => t.hoursFromUtc.natAbs ≤ 24

instance (f : Filter) : Decidable f.Writable := inferInstanceAs (Decidable (_ ∧ _))

instance (s : Split) : Decidable s.Writable :=
  inferInstanceAs (Decidable (∀ p ∈ s.names.entries, InWord p.1))

instance : (v : Variable) → Decidable v.Writable
  | .candidates c =>
    inferInstanceAs (Decidable (∀ t ∈ c.transforms, Binary.isFinite t.operand = true))
  | .timestamp t => inferInstanceAs (Decidable (t.hoursFromUtc.natAbs ≤ 24))

/-- An export all of whose numbers can be written. -/
structure Export.Writable (e : Export) : Prop where
  filters : ∀ f ∈ e.filters, f.Writable
  splits : ∀ s ∈ e.splits.entries, s.2.Writable
  vars : ∀ v ∈ e.vars.entries, v.2.Writable

end ObsExport
