import ObsExport.Batch.Basic
import ObsExport.Event
import ObsExport.FieldTable

/-!
# From records to rectangular arrays

The readings of one field over a batch become one rectangular array. There are two ways to lay it
out.

* `Batch.get`: a row per record. Every level is padded to its largest count in the batch, so all
  rows are equally wide; each leaf keeps the slot that its positions give it, and slots without a
  leaf hold the sentinel, or the empty text.
* `Batch.getGrouped`: a row per instance of the groups around another field. A field that is nested
  no deeper repeats the enclosing value on every row, a deeper one spreads its remaining levels
  across the columns. A record without the other field has one row, and it is empty.

A field must be nested equally deep and be of one kind in all records (`commonShape`), and the
padded array must be of a size that can be handled: a few leaves under many levels can ask for more
slots than there is memory for, and there is room for fewer texts than numbers (`Leaves.entry`). In
both layouts a slot outside its row would be a failure (`place`) and not an overwritten neighbour.

Rows are made record by record and put together, so places are counted within the rows of a record.
Counted within the whole array they are no larger than its size, for which there was room before.
-/

namespace ObsExport

/-- A rectangular array: the number of rows, the size of every padded level, and the values in
row-major order. -/
structure FieldArray where
  field : String
  /-- The field whose groups are the rows; none if records are. -/
  groupBy : Option String
  dims : List Nat
  dimPaths : List String
  leaves : Leaves
deriving DecidableEq

namespace FieldArray

/-- The number of rows. -/
def height (a : FieldArray) : Nat := a.dims.head?.getD 0

/-- The number of values in a row. -/
def width (a : FieldArray) : Except Error Nat := Size.product a.dims.tail

/-- The array as field values. A row of texts must be one text wide. -/
def toValues (a : FieldArray) : Except Error Values := do
  let width ← a.width
  match a.leaves with
  | .numeric values => return .numeric (← Grid.ofValues? a.height width values)
  | .text values =>
    if 1 < width then throw (.shape a.field (.wideText width)) else return .text values

end FieldArray

/-! ### One shape for all records -/

/-- The depth and the kind that the readings of a field have in common; none without readings. -/
def commonShape (name : String) (cells : List (Option Reading)) :
    Except Error (Option (Nat × Bool)) :=
  match cells.findSome? id with
  | none => .ok none
  | some reference =>
    let depth := reference.depth
    let isText := reference.leaves.isText
    -- Every reading is held against the first one, the depth before the kind.
    let fault? : Option Reading × Nat → Option (Nat × StructureFault)
      | (none, _) => none
      | (some reading, record) =>
        if reading.depth ≠ depth then some (record, .depth reading.depth depth)
        else if reading.leaves.isText ≠ isText then some (record, .mixedKinds)
        else none
    match cells.zipIdx.findSome? fault? with
    | some (record, fault) => .error (.structural name record fault)
    | none => .ok (some (depth, isText))

/-- The paths of the dimensions, from the first record that holds the field. -/
def commonDimPaths (cells : List (Option Reading)) : List String :=
  ((cells.findSome? id).map Reading.dimPaths).getD []

/-- Writes values into the slots of a row. -/
def place {α : Type} (row : List α) : List (Nat × α) → Except Error (List α)
  | [] => .ok row
  | (slot, a) :: rest =>
    if slot < row.length then place (row.set slot a) rest else .error .outOfBounds

/-- What a list of leaves has as entries. -/
def Leaves.entry (isText : Bool) : Size.Entry := if isText then .text else .number

/-- Chooses between numbers and texts: what is empty, and which leaves a reading has. -/
def assemble (isText : Bool) (policy : MissingPolicy)
    (build : {α : Type} → α → (Leaves → List α) → Except Error (List α)) : Except Error Leaves :=
  if isText then (build "" Leaves.texts).map .text
  else (build policy.sentinel Leaves.numbers).map .numeric

/-! ### A row per record -/

/-- The row of one record: every leaf in the slot that its positions give it. -/
def recordRow {α : Type} (blank : α) (leaves : Leaves → List α) (width : Nat) (strides : List Nat) :
    Option Reading → Except Error (List α)
  | none => .ok (List.replicate width blank)
  | some reading => do
    let slots ← reading.repeats.offsets strides
    place (List.replicate width blank) (slots.zip (leaves reading.leaves))

/-- The largest counts over the readings of a field, from a level inward. -/
def commonMaxima (depth outer : Nat) (cells : List (Option Reading)) : List Nat :=
  Repeats.maxima (depth - outer)
    ((cells.filterMap id).map fun reading => reading.repeats.levels.drop outer)

/-- A field over the batch, a row per record. A field that no record holds has one empty value per
record. -/
def Batch.get (b : Batch) (name : String) : Logged FieldArray := do
  let cells ← b.observed name
  match ← commonShape name cells with
  | none =>
    return ⟨name, none, [b.size], [], .numeric (List.replicate b.size b.policy.sentinel)⟩
  | some (depth, isText) =>
    let maxima := commonMaxima depth 0 cells
    -- Both products can be too large, and they are taken before any row is made.
    let width ← Size.product maxima
    let strides ← Repeats.strides maxima
    Size.reserve (Leaves.entry isText) (b.size * width)
    let leaves ← assemble isText b.policy fun blank leaves =>
      (cells.mapM (recordRow blank leaves width strides)).map List.flatten
    Logged.report (.fieldPadded name b.size width)
    return ⟨name, none, b.size :: maxima, commonDimPaths cells, leaves⟩

/-! ### A row per instance of another field's groups -/

/-- Whether the groups around a reading are those around another, as far as both go. -/
def Reading.nestedIn (reading group : Reading) (shared : Nat) : Bool :=
  reading.path.take shared == group.path.take shared &&
    reading.repeats.levels.take shared == group.repeats.levels.take shared

/-- The first record in which a field is not nested in the groups of another. -/
def firstNotNested (shared : Nat) (pairs : List (Option Reading × Option Reading)) : Option Nat :=
  pairs.zipIdx.findSome? fun
    | ((some reading, some group), record) =>
      if reading.nestedIn group shared then none else some record
    | _ => none

/-- The number of rows of one record. -/
def groupRows : Option Reading → Nat
  | some group => group.repeats.leafCount
  | none => 1

/-- The rows of one record: a nested field repeats its enclosing value, a deeper one has every leaf
in the row of the instance around it, in the slot of its remaining positions. -/
def groupBlock {α : Type} (blank : α) (leaves : Leaves → List α) (depth groupDepth width : Nat)
    (strides : List Nat) (pair : Option Reading × Option Reading) : Except Error (List α) :=
  let rows := groupRows pair.2
  match pair with
  | (some reading, some group) =>
    if depth ≤ groupDepth then
      (List.range rows).mapM fun row => do
        let source ← Repeats.ancestor (group.repeats.levels.drop depth) row
        required (leaves reading.leaves)[source]?
    else do
      let slots ← (List.range reading.leaves.size).mapM fun leaf => do
        let (row, slot) ← Repeats.climb (reading.repeats.levels.drop groupDepth) strides leaf
        return row * width + slot
      place (List.replicate (rows * width) blank) (slots.zip (leaves reading.leaves))
  | _ => .ok (List.replicate (rows * width) blank)

/-- A field over the batch, a row per innermost instance of the groups around another. -/
def Batch.getGrouped (b : Batch) (name groupBy : String) : Logged FieldArray := do
  let cells ← b.observed name
  let groups ← b.observed groupBy
  let (depth, isText) := (← commonShape name cells).getD (0, false)
  let groupDepth := ((← commonShape groupBy groups).map Prod.fst).getD 0
  -- Only a record that holds both fields can have them in different groups.
  let pairs := cells.zip groups
  match firstNotNested (min depth groupDepth) pairs with
  | some record => Logged.fail (.structural name record (.notNested groupBy))
  | none =>
    -- The levels below the group become columns.
    let maxima := commonMaxima depth groupDepth cells
    let width ← Size.product maxima
    let strides ← Repeats.strides maxima
    let rows := total (groups.map groupRows)
    Size.reserve (Leaves.entry isText) (rows * width)
    let leaves ← assemble isText b.policy fun blank leaves =>
      (pairs.mapM (groupBlock blank leaves depth groupDepth width strides)).map List.flatten
    Logged.report (.fieldGrouped name groupBy rows width)
    return ⟨name, some groupBy, rows :: maxima, commonDimPaths cells, leaves⟩

/-! ### All declared fields -/

/-- Every declared field with a row per record, as a table of fields. -/
def Batch.toTable (b : Batch) : Logged FieldTable :=
  b.names.foldlM
    (fun table name => do
      let array ← b.get name
      return table.insert name (← array.toValues))
    Dict.empty

end ObsExport
