import ObsExport.Codec
import ObsExport.Transform.Basic

/-!
# Failures

Everything that can go wrong is one constructor of `Error`, and the finer causes inside a family
are constructors of their own: what a configuration value was expected to be (`Expectation`), how
repeat counts disagree (`StructureFault`), how shapes disagree (`ShapeFault`), where text stands
for numbers (`TypeFault`). The wording is in the `message` functions alone, so that a statement
about failures never has to speak about text.

Three families have a cause: configuration faults arise while an export is built, data faults while
a batch is assembled, resolved or encoded, storage faults while columns leave for a file.
-/

namespace ObsExport

/-! ### Causes -/

/-- What a configuration value should have been. -/
inductive Expectation where
  | map
  | list
  | string
  | stringOrList
  | number
  | integer
  | naturalNumber
  | categoryCode
  | nonEmptyList
  | nonEmptyMap
  | fieldName
  /-- A timestamp has an epoch field or component fields. -/
  | epochOrComponents
  /-- A variable is a timestamp or read from a field. -/
  | datetimeOrMnemonic
  | timeFormat
  /-- The shift to UTC found in a document lies outside a day. -/
  | dayOffsetFound (hours : Float)
  /-- The shift to UTC is not even a number of seconds. -/
  | dayOffset
  | sizeOrSource
  | startsWith (dimension : String)
  | declaredDimension (found : String)
  | codec (found : String)
  /-- A fill value was observed, so it cannot stand for missing values. -/
  | unobserved (count : Nat) (fill : Float)
  /-- One file has one codec. -/
  | sameCodec (chosen : Codec) (chosenBy : String)
deriving DecidableEq

/-- How repeat counts disagree with each other or with the data. -/
inductive StructureFault where
  | levelIds (ids levels : Nat)
  | parentInstances (level counts instances : Nat)
  /-- The counts of a level add up to no 64-bit word. -/
  | uncountable (level : Nat)
  | leafCount (values implied : Nat)
  | siblingCounts (sibling : String)
  | depth (found expected : Nat)
  | mixedKinds
  | notNested (group : String)
deriving DecidableEq, Repr

/-- How row and column counts disagree. -/
inductive ShapeFault where
  | unfillable (values rows cols : Nat)
  | raggedRow (row found expected : Nat)
  | batchRows (found expected : Nat)
  | wideText (width : Nat)
  | noCategoryColumn
  | noComponentColumn
  | undeclaredDimension (dimension : String)
  | dimensions (rows cols : Nat) (configured : List (String × Nat))
  | chunkCount (chunks dims : Nat)
  | noTextColumn
  | columnLength (column : String) (found expected : Nat)
  | storeRows (found expected : Nat)
deriving DecidableEq, Repr

/-- Where numbers were needed and text was found. -/
inductive TypeFault where
  | filter
  | split
  | component (target : String)
  | transforms
deriving DecidableEq, Repr

/-- Why settings or other configured objects cannot be used. -/
inductive ConfigurationFault where
  | missingValue
  | missingEpsilon
  | locationDimension
  | rowGroupSize
  | noCandidate
  | loggerInstalled
  /-- A destination refuses a variable for a reason of its own. -/
  | refused (reason : String)
deriving DecidableEq, Repr

/-- Why columns could not be stored or read back. -/
inductive StorageFault where
  | notText (column : String)
  | notNumeric (column : String)
  | assembly
deriving DecidableEq, Repr

/-- Which file operation failed. -/
inductive IoFault where
  | readConfiguration (path : String)
  | createFile (path : String)
deriving DecidableEq, Repr

/-- The kinds of named things whose names must differ. -/
inductive NameFamily where
  | field
  | exportVariable
  | split
  | dimension
  | outputVariable
  | outputColumn
deriving DecidableEq, Repr

/-- The kinds of configuration blocks that are told apart by the keys they hold. -/
inductive BlockFamily where
  | exportVariable
  | filter
  | split
  | transform
deriving DecidableEq, Repr

/-- A failure. -/
inductive Error where
  | missingConfig (path : String)
  | invalidConfig (path : String) (expected : Expectation)
  | unknownKind (family : BlockFamily) (path found : String)
  | duplicateName (family : NameFamily) (name : String)
  | unresolvable (target : String) (candidates : List String)
  | structural (field : String) (record : Nat) (fault : StructureFault)
  | shape (name : String) (fault : ShapeFault)
  | ambiguousSplit (split name : String)
  | fieldNotFound (name : String)
  | type (name : String) (fault : TypeFault)
  | transformRange (target : String) (transform : Transform) (value : Float)
  | configParse
  | configuration (fault : ConfigurationFault)
  | storage (fault : StorageFault)
  | io (fault : IoFault)
  /-- An index or a size that the data does not have. -/
  | outOfBounds
  /-- A size that is no 64-bit word or that no list can have. -/
  | tooLarge
deriving DecidableEq

/-! ### Wording -/

/-- Joins texts with a separator between each two. -/
def joined (separator : String) (texts : List String) : String := separator.intercalate texts

/-- What was expected, in words. -/
def Expectation.message : Expectation → String
  | map => "a map"
  | list => "a list"
  | string => "a string"
  | stringOrList => "a string or a list of strings"
  | number => "a number"
  | integer => "an integer"
  | naturalNumber => "a non-negative integer"
  | categoryCode => "an integer category code as key"
  | nonEmptyList => "a non-empty list"
  | nonEmptyMap => "a non-empty map"
  | fieldName => "at least one field name"
  | epochOrComponents => "either an epoch field or calendar component fields, not both"
  | datetimeOrMnemonic => "either a datetime block or a mnemonic, not both"
  | timeFormat => "\"epoch\" or \"iso8601\""
  | dayOffsetFound hours => s!"an offset within ±24 hours (found {Number.text hours})"
  | dayOffset => "an offset within ±24 hours"
  | sizeOrSource => "either a size or a source, not both"
  | startsWith dimension => s!"a list starting with '{dimension}'"
  | declaredDimension found => s!"a declared dimension (found '{found}')"
  | codec found => s!"one of snappy, zstd, lz4, uncompressed (found '{found}')"
  | unobserved count fill =>
    s!"a value never observed in the data ({count} observations equal {Number.text fill})"
  | sameCodec chosen chosenBy => s!"the codec {chosen.title} already chosen by '{chosenBy}'"

/-- The disagreement of repeat counts, in words. -/
def StructureFault.message : StructureFault → String
  | levelIds ids levels => s!"{ids} sequence ids for {levels} repeat levels"
  | parentInstances level counts instances =>
    s!"level {level} has {counts} repeat counts but its parent has {instances} instances"
  | uncountable level => s!"level {level} has more instances than can be counted"
  | leafCount values implied => s!"{values} values but the repeat counts imply {implied}"
  | siblingCounts sibling => s!"repeat counts disagree with sibling field '{sibling}'"
  | depth found expected =>
    s!"nesting depth {found} differs from depth {expected} in other records"
  | mixedKinds => "field mixes string and numeric values across records"
  | notNested group => s!"not nested in the repeated groups of '{group}'"

/-- The disagreement of shapes, in words. -/
def ShapeFault.message : ShapeFault → String
  | unfillable values rows cols => s!"{values} values cannot fill a {rows}x{cols} array"
  | raggedRow row found expected => s!"row {row} has {found} columns, expected {expected}"
  | batchRows found expected => s!"field has {found} rows but the batch has {expected}"
  | wideText width => s!"string field is {width} values wide"
  | noCategoryColumn => "category field has no columns"
  | noComponentColumn => "datetime component has no columns"
  | undeclaredDimension dimension => s!"dimension '{dimension}' is not declared"
  | dimensions rows cols configured =>
    let sizes := joined ", " (configured.map fun d => d.1 ++ "=" ++ toString d.2)
    s!"data is {rows}x{cols} but the configured dimensions are [{sizes}]"
  | chunkCount chunks dims =>
    s!"{chunks} chunk sizes given for {dims} dimensions (all must be positive)"
  | noTextColumn => "string variable has no column"
  | columnLength column found expected =>
    s!"column '{column}' has {found} values, expected {expected}"
  | storeRows found expected => s!"{found} records but the store holds {expected}"

/-- The misplaced text, in words. -/
def TypeFault.message : TypeFault → String
  | filter => "bounding filters require a numeric field"
  | split => "category splits require a numeric field"
  | component target => s!"datetime component of '{target}' must be numeric"
  | transforms => "transforms cannot be applied to a string field"

/-- The unusable configuration, in words. -/
def ConfigurationFault.message : ConfigurationFault → String
  | missingValue => "missingValue must be a finite number"
  | missingEpsilon => "missingEpsilon must be a finite, non-negative number"
  | locationDimension => "locationDimension must not be empty"
  | rowGroupSize => "rowGroupSize must be positive"
  | noCandidate => "A mnemonic variable needs at least one candidate field"
  | loggerInstalled =>
    "cannot install logger: a global default trace dispatcher has already been set"
  | refused reason => reason

/-- The failed storage step, in words. -/
def StorageFault.message : StorageFault → String
  | notText column => s!"Column '{column}' is not a string column"
  | notNumeric column => s!"Column '{column}' is not a float column"
  | assembly => "Failed to assemble output columns"

/-- The failed file operation, in words. -/
def IoFault.message : IoFault → String
  | readConfiguration path => s!"Failed to read configuration file {path}"
  | createFile path => s!"Failed to create {path}"

/-- What messages call a family of names. -/
def NameFamily.name : NameFamily → String
  | field => "field"
  | exportVariable => "variable"
  | split => "split"
  | dimension => "dimension"
  | outputVariable => "output variable"
  | outputColumn => "output column"

/-- What messages call a family of blocks. -/
def BlockFamily.name : BlockFamily → String
  | exportVariable => "variable"
  | filter => "filter"
  | split => "split"
  | transform => "transform"

/-- The failure in words. -/
def Error.message : Error → String
  | missingConfig path => s!"Missing required configuration: {path}"
  | invalidConfig path expected =>
    s!"Invalid configuration value at '{path}': expected {expected.message}"
  | unknownKind family path found => s!"Unknown {family.name} kind at '{path}': {found}"
  | duplicateName family name => s!"Duplicate {family.name} name: {name}"
  | unresolvable target candidates =>
    let listed := joined ", " candidates
    s!"None of mnemonic(s) [{listed}] could be resolved for variable '{target}'"
  | structural field record fault =>
    s!"Structural mismatch for field '{field}' in record {record}: {fault.message}"
  | shape name fault => s!"Shape mismatch for '{name}': {fault.message}"
  | ambiguousSplit split name => s!"Ambiguous split name '{name}' in split '{split}'"
  | fieldNotFound name => s!"Field not found: {name}"
  | type name fault => s!"Type mismatch for field '{name}': {fault.message}"
  | transformRange target transform value =>
    s!"Transform {transform.label} on variable '{target}' maps observed value "
      ++ s!"{Number.text value} into the missing range"
  | configParse => "Configuration parse error: Invalid configuration document"
  | configuration fault => s!"Configuration error: {fault.message}"
  | storage fault => s!"Storage backend error: {fault.message}"
  | io fault => s!"I/O error: {fault.message}"
  | outOfBounds => "index out of bounds"
  | tooLarge => "size too large"

/-- An element that must be there. -/
def required {α : Type} : Option α → Except Error α
  | some a => .ok a
  | none => .error .outOfBounds

@[simp] theorem required_some {α : Type} (a : α) : required (some a) = .ok a := rfl

@[simp] theorem required_none {α : Type} : required (none : Option α) = .error .outOfBounds := rfl

end ObsExport
