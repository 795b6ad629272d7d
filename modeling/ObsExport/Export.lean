import ObsExport.Config.Reader
import ObsExport.Filter
import ObsExport.Split
import ObsExport.Variable.Basic

/-!
# Exports

An export says what is made of a batch: filters choose its records, splits sort these into
partitions, and variables become the artifacts of every partition. Variables and splits have names
and are listed in name order, filters stand in declared order, and there is at least one variable.

With several splits the name of a partition joins the names that its rows have under each of them,
in the order of the splits' names. Rows that differ under some split must not meet under one joined
name. Without splits the whole batch is one partition.
-/

namespace ObsExport

/-- Filters, splits and variables. -/
@[ext] structure Export where
  vars : Dict String Variable
  splits : Dict String Split
  filters : List Filter
  nonempty : vars.entries ≠ []
deriving DecidableEq

namespace Export

/-- The name of the one partition of a batch that is not split. -/
def wholeName : String := "all"

/-- What stands between the parts of a partition name. -/
def separator : String := "_"

/-! ### Making exports -/

/-- Collects entries, no two of which may have one name. -/
def unique {α : Type} (family : NameFamily) (entries : List (String × α)) :
    Except Error (Dict String α) :=
  entries.foldlM
    (fun d e =>
      if d.contains e.1 then .error (.duplicateName family e.1) else .ok (d.insert e.1 e.2))
    Dict.empty

/-- The export of some parts, at least one of them a variable. -/
def make (filters : List Filter) (splits : List (String × Split))
    (vars : List (String × Variable)) : Except Error Export := do
  let vars ← unique .exportVariable vars
  if h : vars.entries = [] then throw (.missingConfig "variables")
  else return ⟨vars, ← unique .split splits, filters, h⟩

/-! ### Using exports -/

/-- The rows that every filter keeps, ascending. -/
def retainedRows (e : Export) (data : FieldTable) (policy : MissingPolicy) : Logged (List Nat) :=
  Filter.sift e.filters data policy

/-- The partition names of every row under each split, in the order of the splits' names. A row
beyond the field of a split has no name under it. -/
def rowNames (e : Export) (data : FieldTable) (policy : MissingPolicy) :
    Logged (List (List String)) := do
  let labels ← e.splits.entries.mapM fun s => s.2.rowLabels s.1 data policy
  return (List.range data.rowCount).map fun row => labels.filterMap fun l => l[row]?

/-- The partitions of a batch. A row is listed by its number, or by the list of its names if there
are splits. -/
def partitions (e : Export) (data : FieldTable) (policy : MissingPolicy) : Logged Partitions := do
  if e.splits.entries.isEmpty then
    Size.reserve .number data.rowCount
    return Dict.ofList [(wholeName, List.range data.rowCount)]
  else
    data.reserveRows (e.splits.values.map Split.mnemonic) .text
    let names ← e.rowNames data policy
    -- The separator may occur in a name, so different rows can still meet when joined.
    match firstClash? (names.map fun n => (joined separator n, n)) with
    | some clash => Logged.fail (.ambiguousSplit (joined "," e.splits.keys) clash.name)
    | none =>
      let partitions := Partitions.group (names.map (joined separator))
      Logged.report (.batchPartitioned e.splits.size partitions.size)
      return partitions

/-! ### Reading exports -/

/-- Entries of a map that must have some. -/
def nonEmptyEntries (c : Cursor) : Except Error (List (String × Cursor)) := do
  let entries ← c.entries
  if entries.isEmpty then throw (.invalidConfig c.path .nonEmptyMap)
  return entries

/-- Items of a list that must have some. -/
def nonEmptyItems (c : Cursor) : Except Error (List Cursor) := do
  let items ← c.items
  if items.isEmpty then throw (.invalidConfig c.path .nonEmptyList)
  return items

/-- Reads every entry of a map by a reader for its values. -/
def readEntries {α : Type} (read : Cursor → Logged α) (entries : List (String × Cursor)) :
    Logged (List (String × α)) :=
  entries.mapM fun e => do return (e.1, ← read e.2)

/-- Reads the filters, which may be left out. -/
def filtersOfConfig (c : Cursor) : Logged (List Filter) :=
  match c.get? "filters" with
  | some list => do (← nonEmptyItems list).mapM Filter.ofConfig
  | none => pure []

/-- Reads the splits, which may be left out. -/
def splitsOfConfig (c : Cursor) : Logged (List (String × Split)) :=
  match c.get? "splits" with
  | some map => do readEntries Split.ofConfig (← nonEmptyEntries map)
  | none => pure []

/-- Reads the section of an export. -/
def ofConfig (c : Cursor) : Logged Export := do
  c.check .exports
  let filters ← filtersOfConfig c
  let splits ← splitsOfConfig c
  let vars ← readEntries Variable.ofConfig (← nonEmptyEntries (← c.child "variables"))
  let result ← make filters splits vars
  Logged.report
    (.exportConfigured result.vars.size result.splits.size result.filters.length)
  return result

/-- Reads an export from a tree that holds the section under its name or is the section itself. -/
def ofTree (t : Tree) : Logged Export := ofConfig ⟨"export", (t.find? "export").getD t⟩

/-- Reads an export from the text of a document. -/
def ofText (text : String) : Logged Export :=
  match Tree.parse? text with
  | some t => ofTree t
  | none => Logged.fail .configParse

end Export

end ObsExport
