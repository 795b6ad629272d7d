import ObsExport.Counts
import ObsExport.Store.Basic

/-!
# Encoding batches

Encoding a batch runs its export and writes the layout: filters drop records, splits sort the rest
into partitions, and in every partition each export variable is resolved once and each output
variable written from the one that is its source. A partition without records is left out if the
settings say so. Whatever fails ends the encoding of the batch.

Where the variables of a partition go is a `Sink`. `Encoder.encode` writes each partition to a
`Store` of its own.
-/

namespace ObsExport

/-- A destination for the variables of a partition: how one is opened for a partition, and how it
takes a variable. -/
structure Sink (σ : Type) where
  opened : String → σ
  write : σ → StoredVariable → Logged σ

/-- The sink that stores. -/
def Store.sink : Sink Store := ⟨fun _ => Store.empty, Store.write⟩

/-- A layout and the settings it is written with. -/
structure Encoder where
  layout : Layout
  settings : Settings
deriving DecidableEq

/-- A partition that was written. -/
structure Written (σ : Type) where
  partition : String
  sink : σ
  /-- How many variables it was given. -/
  count : Nat

namespace Encoder

variable {σ : Type}

/-- The artifacts of all export variables for a batch. -/
def resolveAll (e : Export) (policy : MissingPolicy) (data : FieldTable) :
    Logged (List (String × Values)) :=
  e.vars.entries.mapM fun v => do return (v.1, ← v.2.resolve v.1 policy data)

/-- The artifact of an export variable that is referred to. -/
def artifact (resolved : List (String × Values)) (source : String) : Except Error Values :=
  match Dict.lookup source resolved with
  | some v => .ok v
  | none => .error (.missingConfig ("export::variables::" ++ source))

/-- A dimension of an output variable in a partition. -/
def dimension (layout : Layout) (output : OutputVariable) (rows : Nat)
    (resolved : List (String × Values)) (name : String) : Except Error Dimension :=
  if name = layout.locationDimension then .ok ⟨name, rows⟩
  else
    match layout.dimension? name with
    | none => .error (.shape output.name (.undeclaredDimension name))
    | some spec =>
      match spec.extent with
      | .fixed size => .ok ⟨name, size⟩
      | .columnsOf source => (artifact resolved source).map fun v => ⟨name, v.width⟩

/-- An output variable in columns. -/
def materialize (layout : Layout) (policy : MissingPolicy) (rows : Nat)
    (resolved : List (String × Values)) (output : OutputVariable) :
    Except Error StoredVariable := do
  let values ← artifact resolved output.source
  let dimensions ← output.dimensions.mapM (dimension layout output rows resolved)
  values.materialize output.name dimensions output.options policy

/-- Writes one more output variable. -/
def writeOutput (enc : Encoder) (sink : Sink σ) (rows : Nat) (resolved : List (String × Values))
    (written : Written σ) (output : OutputVariable) : Logged (Written σ) := do
  let v ← materialize enc.layout enc.settings.missing rows resolved output
  return { written with
    sink := ← sink.write written.sink v
    count := written.count + 1 }

/-- Writes the output variables of a partition. -/
def writeVariables (enc : Encoder) (sink : Sink σ) (e : Export) (data : FieldTable)
    (partition : String) : Logged (Written σ) := do
  let resolved ← resolveAll e enc.settings.missing data
  enc.layout.outputs.foldlM (enc.writeOutput sink data.rowCount resolved)
    ⟨partition, sink.opened partition, 0⟩

/-- Writes a partition of a filtered batch, unless it is left out. -/
def encodePartition (enc : Encoder) (sink : Sink σ) (e : Export) (filtered : FieldTable)
    (partition : String) (rows : List Nat) : Logged (Option (Written σ)) := do
  if rows.isEmpty && enc.settings.skipEmptyPartitions then
    Logged.report (.partitionSkipped partition)
    return none
  else
    let data ← FieldTable.select filtered rows
    -- The sink is opened first, so it has been opened even if a variable fails.
    Logged.report (.partitionOpened partition)
    let written ← enc.writeVariables sink e data partition
    Logged.report (.partitionEncoded partition rows.length)
    return some written

/-- Encodes a batch: what was written for each partition, and the counters. -/
def encodeWith (enc : Encoder) (sink : Sink σ) (e : Export) (data : FieldTable) :
    Logged (Dict String σ × Tally) := do
  let policy := enc.settings.missing
  let recordsIn ← FieldTable.checkRows data
  let retained ← e.retainedRows data policy
  -- From here on rows are counted in the filtered batch.
  let filtered ← FieldTable.select data retained
  let partitions ← e.partitions filtered policy
  let results ← partitions.entries.mapM fun p => enc.encodePartition sink e filtered p.1 p.2
  let written := results.filterMap id
  let tally : Tally := {
    recordsIn := recordsIn
    recordsRetained := retained.length
    partitionsWritten := written.length
    partitionsSkipped := results.countP Option.isNone
    variablesWritten := total (written.map Written.count) }
  Logged.report (.batchEncoded tally)
  return (Dict.ofList (written.map fun w => (w.partition, w.sink)), tally)

/-- Encodes a batch into stores. -/
def encode (enc : Encoder) (e : Export) (data : FieldTable) : Logged (Dict String Store × Tally) :=
  enc.encodeWith Store.sink e data

end Encoder

end ObsExport
