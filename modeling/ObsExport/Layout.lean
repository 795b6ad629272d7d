import ObsExport.Export
import ObsExport.Settings

/-!
# Output layouts

A layout names the dimensions of an output and the variables that are written against them. The
location dimension counts records; every other dimension is declared with a size or with an export
variable whose columns it counts. An output variable has a source, which is an export variable, and
a list of dimensions, the location dimension first.

`Layout.ofConfig` reads a layout and checks every reference in it against the export and against
the declared dimensions, so that a layout that was read can be written. A source may be spelled
with the prefix `variables/`, which does not belong to the name.
-/

namespace ObsExport

/-- How a dimension gets its size. -/
inductive Extent where
  | fixed (size : Nat)
  /-- As many as an export variable has columns. -/
  | columnsOf (variableName : String)
deriving DecidableEq, Repr

/-- A dimension besides the location dimension. -/
structure DimensionSpec where
  name : String
  extent : Extent
deriving DecidableEq, Repr

/-- How a variable is written. -/
structure WriteOptions where
  /-- A chunk size per dimension; none at all means one chunk. -/
  chunks : List Nat
  /-- What stands for missing values; without it they are null. -/
  fillValue : Option Float
  compression : Option Codec
  longName : Option String
  units : Option String
deriving DecidableEq

/-- No choices. -/
def WriteOptions.none : WriteOptions := ⟨[], .none, .none, .none, .none⟩

/-- A variable of the output. -/
structure OutputVariable where
  name : String
  /-- The export variable that provides the data. -/
  source : String
  dimensions : List String
  options : WriteOptions
deriving DecidableEq

/-- The export variable a source refers to: the prefix, once, does not belong to the name. -/
def sourceName (source : String) : String :=
  let start := "variables/".toList
  if start.isPrefixOf source.toList then String.ofList (source.toList.drop start.length) else source

/-- An output variable without options. -/
def OutputVariable.ofSource (name source : String) (dimensions : List String) : OutputVariable :=
  ⟨name, sourceName source, dimensions, .none⟩

/-- The dimensions and variables of an output. -/
structure Layout where
  locationDimension : String
  dimensions : List DimensionSpec
  outputs : List OutputVariable
deriving DecidableEq

namespace Layout

/-! ### Looking up -/

/-- The declaration of a dimension. -/
def dimension? (l : Layout) (name : String) : Option DimensionSpec :=
  l.dimensions.find? fun d => d.name = name

/-! ### Reading -/

/-- Reads a source, which must be a variable of the export. -/
def sourceOf (c : Cursor) (source : String) (e : Export) : Except Error String :=
  let name := sourceName source
  if e.vars.contains name then .ok name
  else .error (.missingConfig (c.path ++ "::source -> export::variables::" ++ name))

/-- Reads a dimension, which has a size or a source. -/
def dimensionOfConfig (e : Export) (c : Cursor) : Logged DimensionSpec := do
  c.check .outputDimension
  let name ← c.string "name"
  match c.get? "size", c.get? "source" with
  | some size, none => return ⟨name, .fixed (← size.asNatural)⟩
  | none, some source => return ⟨name, .columnsOf (← sourceOf c (← source.asString) e)⟩
  | some _, some _ => Logged.fail (.invalidConfig c.path .sizeOrSource)
  | none, none => Logged.fail (.missingConfig (c.path ++ "::size"))

/-- Reads the dimensions of a variable, which begin with the location dimension. -/
def dimensionsOfConfig (location : String) (c : Cursor) : Except Error (List String) := do
  let names := (← c.optional "dimensions" Cursor.asStrings).getD [location]
  if names.head? = some location then return names
  else throw (.invalidConfig (c.path ++ "::dimensions") (.startsWith location))

/-- Reads the codec of a variable. -/
def codecOfConfig (c : Cursor) : Except Error (Option Codec) := do
  match ← c.string? "compression" with
  | none => return none
  | some name =>
    match Codec.ofName? name with
    | some codec => return some codec
    | none => throw (.invalidConfig (c.path ++ "::compression") (.codec name))

/-- Reads the chunk sizes of a variable. -/
def chunksOfConfig (c : Cursor) : Except Error (List Nat) := do
  let sizes ← c.optional "chunks" fun list => do (← list.items).mapM Cursor.asNatural
  return sizes.getD []

/-- Reads an output variable. -/
def variableOfConfig (e : Export) (location : String) (c : Cursor) : Logged OutputVariable := do
  c.check .outputVariable
  let name ← c.string "name"
  let source ← sourceOf c (← c.string "source") e
  let dimensions ← dimensionsOfConfig location c
  let options : WriteOptions := {
    chunks := ← chunksOfConfig c
    fillValue := ← c.float? "fillValue"
    compression := ← codecOfConfig c
    longName := ← c.string? "longName"
    units := ← c.string? "units" }
  return ⟨name, source, dimensions, options⟩

/-- Reads one more dimension, whose name must be new. -/
def addDimension (e : Export) (location : String) (read : List DimensionSpec) (c : Cursor) :
    Logged (List DimensionSpec) := do
  let dimension ← dimensionOfConfig e c
  if dimension.name = location ∨ dimension.name ∈ read.map DimensionSpec.name then
    Logged.fail (.duplicateName .dimension dimension.name)
  else return read ++ [dimension]

/-- Reads one more variable, whose dimensions must be declared and whose name must be new. -/
def addVariable (e : Export) (location : String) (dimensions : List DimensionSpec)
    (read : List OutputVariable) (c : Cursor) : Logged (List OutputVariable) := do
  let added ← variableOfConfig e location c
  let declared := location :: dimensions.map DimensionSpec.name
  match added.dimensions.find? fun d => !declared.contains d with
  | some d => Logged.fail (.invalidConfig (c.path ++ "::dimensions") (.declaredDimension d))
  | none =>
    if added.name ∈ read.map OutputVariable.name then
      Logged.fail (.duplicateName .outputVariable added.name)
    else return read ++ [added]

/-- Reads the dimensions that are declared besides the location dimension. -/
def specsOfConfig (e : Export) (location : String) (c : Cursor) : Logged (List DimensionSpec) :=
  match c.get? "dimensions" with
  | some list => do (← list.items).foldlM (addDimension e location) []
  | none => pure []

/-- Reads the section of an output. -/
def ofConfig (c : Cursor) (e : Export) (s : Settings) : Logged Layout := do
  c.check .output
  let location := (← c.string? "locationDimension").getD s.locationDimension
  let dimensions ← specsOfConfig e location c
  let outputs ← (← (← c.child "variables").items).foldlM (addVariable e location dimensions) []
  return ⟨location, dimensions, outputs⟩

end Layout

end ObsExport
