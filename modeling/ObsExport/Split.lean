import ObsExport.Clash
import ObsExport.Config.Cursor
import ObsExport.FieldTable
import ObsExport.Number.Binary

/-!
# Category splits

A split sorts the records of a batch by the integer value of one field, its category. Every
category has a name: the one its code is given in the split's table, or else the code in decimal; a
record without an observed category belongs to the name `missing`. The rows of one name are a
partition.

Two categories must not share a name. A table that gives two codes one name is no split
(`Split.make`), and a batch in which two categories meet under one name, such as the code of one
and the table name of another, is refused (`Split.labels`).

`Partitions.group` collects the rows of each name: every row is in the partition of its name and in
no other (`find?_group`).
-/

namespace ObsExport

/-! ### Partitions -/

/-- The rows of each partition, ascending, by partition name. -/
abbrev Partitions := Dict String (List Nat)

namespace Partitions

/-- The positions at which a label stands, ascending. -/
def positions (label : String) (labels : List String) : List Nat :=
  (labels.zipIdx.filter fun l => l.1 = label).map Prod.snd

/-- The partitions of rows that are labelled in order. -/
def group (labels : List String) : Partitions :=
  Dict.ofList (labels.eraseDups.map fun label => (label, positions label labels))

/-- A row is among the positions of the label that it has. -/
theorem mem_positions {label : String} {labels : List String} {row : Nat} :
    row ∈ positions label labels ↔ labels[row]? = some label := by
  simp only [positions, List.mem_map, List.mem_filter, decide_eq_true_eq]
  constructor
  · rintro ⟨⟨l, i⟩, ⟨hmem, rfl⟩, rfl⟩
    simpa [List.mem_zipIdx_iff_getElem?] using hmem
  · intro h
    exact ⟨(label, row), ⟨by simpa [List.mem_zipIdx_iff_getElem?] using h, rfl⟩, rfl⟩

/-- Under every label that occurs stand the rows that have it. -/
theorem find?_group (labels : List String) (name : String) :
    (group labels).find? name = if name ∈ labels then some (positions name labels) else none := by
  rw [group, Dict.find?_ofList]
  -- The entries are collected from the end, but every label is listed once.
  have hgen : ∀ l : List String,
      Dict.lookup name (l.map fun label => (label, positions label labels)) =
        if name ∈ l then some (positions name labels) else none := by
    intro l
    induction l with
    | nil => rfl
    | cons label l ih =>
      by_cases h : name = label <;> simp [Dict.lookup, h, ih]
  rw [← List.map_reverse, hgen]
  simp [List.mem_eraseDups]

end Partitions

/-! ### Splits -/

/-- A category field and the names of some of its codes, no two codes with one name. -/
structure Split where
  mnemonic : String
  names : Dict Int String
  distinct : ∀ p ∈ names.entries, ∀ q ∈ names.entries, p.2 = q.2 → p.1 = q.1
deriving DecidableEq

namespace Split

/-- The name of records without an observed category. -/
def missingName : String := "missing"

/-- The split of a field by a table of names, if no two codes share a name. -/
def make (mnemonic : String) (names : Dict Int String) : Logged Split :=
  match h : firstClash? (names.entries.map fun e => (e.2, e.1)) with
  | some clash =>
    ⟨[.codesShareName mnemonic clash.name clash.earlier clash.later],
      .error (.ambiguousSplit mnemonic clash.name)⟩
  | none => pure ⟨mnemonic, names, fun p hp q hq hpq =>
      firstClash?_eq_none_iff.1 h (p.2, p.1) (List.mem_map.2 ⟨p, hp, rfl⟩)
        (q.2, q.1) (List.mem_map.2 ⟨q, hq, rfl⟩) hpq⟩

/-- The name of a category. -/
def nameOf (s : Split) (code : Int) : String := (s.names.find? code).getD (toString code)

/-- The category code of a value: the nearest integer, as far as 64 bits reach. -/
def codeOf (x : Float) : Int :=
  match Binary.ofFloat? x with
  | some b => clampWord b.round
  -- Infinities go to the ends of the range, and what is no number goes to zero.
  | none => if x < 0 then leastWord else if 0 < x then greatestWord else 0

/-- The category of a value, if it is observed. -/
def categoryOf (policy : MissingPolicy) (x : Float) : Option Int :=
  (policy.observed? x).map codeOf

/-- The partition name of a category. -/
def labelOf (s : Split) : Option Int → String
  | some code => s.nameOf code
  | none => missingName

/-- The field of a split, which must be numeric and have a column. -/
def target (s : Split) (data : FieldTable) : Except Error Grid :=
  match data.find? s.mnemonic with
  | some (.numeric grid) =>
    if grid.cols = 0 then .error (.shape s.mnemonic .noCategoryColumn) else .ok grid
  | some (.text _) => .error (.type s.mnemonic .split)
  | none => .error (.fieldNotFound s.mnemonic)

/-- The category of every record: that of the value in the first column. -/
def categories (s : Split) (data : FieldTable) (policy : MissingPolicy) :
    Except Error (List (Option Int)) := do
  let grid ← s.target data
  grid.rows.mapM fun row => (required row[0]?).map (categoryOf policy)

/-- The partition name of every record. Two categories under one name are a failure. -/
def labels (s : Split) (splitName : String) (data : FieldTable) (policy : MissingPolicy) :
    Except Error (List String) := do
  let categories ← s.categories data policy
  match firstClash? (categories.map fun c => (s.labelOf c, c)) with
  | some clash => .error (.ambiguousSplit splitName clash.name)
  | none => .ok (categories.map s.labelOf)

/-- The partition names, with a report of how many there are. -/
def reportedLabels (s : Split) (splitName : String) (data : FieldTable) (policy : MissingPolicy) :
    Logged (List String) := do
  let labels ← s.labels splitName data policy
  Logged.report (.splitApplied splitName s.mnemonic (Partitions.group labels).size)
  return labels

/-- The partition names of the rows of a batch. A field with more rows than the batch is a
failure. -/
def rowLabels (s : Split) (splitName : String) (data : FieldTable) (policy : MissingPolicy) :
    Logged (List String) := do
  let labels ← s.reportedLabels splitName data policy
  -- Labels are put to rows by number, so there must not be more of them.
  if data.rowCount < labels.length then Logged.fail .outOfBounds else return labels

/-- The partitions of a batch by one split. -/
def partition (s : Split) (splitName : String) (data : FieldTable) (policy : MissingPolicy) :
    Logged Partitions :=
  Partitions.group <$> s.reportedLabels splitName data policy

/-! ### Reading -/

/-- The code a key of the table denotes: a decimal integer of the signed 64-bit range, behind any
number of underscores. -/
def code? (key : String) : Option Int :=
  (Number.signedDigits? (key.toList.dropWhile (· = '_'))).bind word?

/-- Reads one entry of a table of names. -/
def nameOfConfig (e : String × Cursor) : Except Error (Int × String) := do
  let code ← e.2.expect .categoryCode (code? e.1)
  return (code, ← e.2.asString)

/-- Reads a category block. -/
def ofCategory (c : Cursor) : Logged Split := do
  c.check .category
  -- Several keys may denote one code; the last in key order counts.
  let names ← match c.get? "map" with
    | some table => (do (← table.entries).mapM nameOfConfig : Except Error _)
    | none => pure []
  make (← c.string "mnemonic") (Dict.ofList names)

/-- Reads one entry of the map of splits. -/
def ofConfig (c : Cursor) : Logged Split :=
  match c.get? "category" with
  | some block => ofCategory block
  | none => Logged.fail (.unknownKind .split c.path c.firstKey)

end Split

end ObsExport
