import ObsExport.Layout
import ObsExport.Store.Column

/-!
# From artifacts to columns and back

Materializing an artifact checks it against the dimensions it is to be written with and puts it
into columns. A numeric artifact takes one dimension if it has one column, and otherwise two; a
textual one takes one. Missing numbers become null or the fill value, which therefore must not have
been observed; empty texts become null.

Reading the columns back (`StoredVariable.toValues`) makes nulls and fill values the sentinel again
and leaves every observation as it was.
-/

namespace ObsExport

namespace Values

/-- Whether an artifact has the shape of some dimensions. -/
def fits : Values → List Dimension → Bool
  | v, [records] => records.size == v.height && v.width == 1
  | numeric grid, [records, columns] => records.size == grid.height && columns.size == grid.cols
  | _, _ => false

/-- Fails for dimensions of another shape. -/
def checkDimensions (v : Values) (name : String) (dimensions : List Dimension) :
    Except Error Unit :=
  if v.fits dimensions then .ok ()
  else
    .error (.shape name
      (.dimensions v.height v.width (dimensions.map fun d => (d.name, d.size))))

/-- The chunk sizes: those that are asked for, one and positive for each dimension, or else the
dimensions as a whole. -/
def chunkSizes (name : String) (dimensions : List Dimension) (chunks : List Nat) :
    Except Error (List Nat) :=
  if chunks.isEmpty then .ok (dimensions.map fun d => max d.size 1)
  else if chunks.length ≠ dimensions.length ∨ 0 ∈ chunks then
    .error (.shape name (.chunkCount chunks.length dimensions.length))
  else .ok chunks

/-- How many observations equal a fill value. -/
def collisions (grid : Grid) (policy : MissingPolicy) (fill : Float) : Nat :=
  grid.values.countP fun x => policy.isPresent x && x == fill

/-- Fails for a fill value that was observed. -/
def checkFill (name : String) (grid : Grid) (policy : MissingPolicy) :
    Option Float → Except Error Unit
  | none => .ok ()
  | some fill =>
    let n := collisions grid policy fill
    if n = 0 then .ok () else .error (.invalidConfig (name ++ "::fillValue") (.unobserved n fill))

/-- What is written for a number. -/
def encodeNumber (policy : MissingPolicy) (fill : Option Float) (x : Float) : Option Float :=
  if policy.isMissing x then fill else some x

/-- What is written for a text. -/
def encodeText (s : String) : Option String := if s.isEmpty then none else some s

/-- The name of a column of a variable with several. -/
def columnName (name : String) (column : Nat) : String := name ++ "_" ++ toString (column + 1)

/-- The columns of a numeric artifact. A single one has the name of the variable. A number that may
be missing takes more room than a number, and columns need no rows to be listed. -/
def numericColumns (name : String) (grid : Grid) (policy : MissingPolicy) (fill : Option Float) :
    Except Error (List Column) := do
  if grid.cols = 1 then
    Size.reserve .optional grid.height
    return [⟨name, .numeric (grid.values.map (encodeNumber policy fill))⟩]
  else
    Size.reserve .column grid.cols
    (List.range grid.cols).mapM fun c =>
      (grid.column c).map fun xs =>
        ⟨columnName name c, .numeric (xs.map (encodeNumber policy fill))⟩

/-- The columns of an artifact. -/
def columns (name : String) (policy : MissingPolicy) (fill : Option Float) :
    Values → Except Error (List Column)
  | numeric grid => do
    checkFill name grid policy fill
    numericColumns name grid policy fill
  | text entries => .ok [⟨name, .text (entries.map encodeText)⟩]

/-- An artifact in columns. -/
def materialize (v : Values) (name : String) (dimensions : List Dimension) (options : WriteOptions)
    (policy : MissingPolicy) : Except Error StoredVariable := do
  v.checkDimensions name dimensions
  let chunks ← chunkSizes name dimensions options.chunks
  let columns ← v.columns name policy options.fillValue
  return {
    name := name
    dimensions := dimensions.map Dimension.name
    shape := dimensions.map Dimension.size
    chunks := chunks
    fillValue := options.fillValue
    compression := options.compression
    longName := options.longName
    units := options.units
    isText := v.isText
    columns := columns }

end Values

namespace StoredVariable

/-- What a written number stands for. -/
def decodeNumber (policy : MissingPolicy) (fill : Option Float) : Option Float → Float
  | none => policy.sentinel
  | some x => if fill.any (x == ·) then policy.sentinel else x

/-- The numbers of a numeric column. -/
def numbers (c : Column) : Except Error (List (Option Float)) :=
  match c.data with
  | .numeric values => .ok values
  | .text _ => .error (.storage (.notNumeric c.name))

/-- The artifact that the columns hold. Numeric columns are cut or filled up to the number of
records. -/
def toValues (v : StoredVariable) (policy : MissingPolicy) : Except Error Values :=
  if v.isText then
    match v.columns with
    | [] => .error (.shape v.name .noTextColumn)
    | c :: _ =>
      match c.data with
      | .text values => .ok (.text (values.map fun s => s.getD ""))
      | .numeric _ => .error (.storage (.notText v.name))
  else do
    -- For values that no column has there must be room.
    if v.columns.any fun c => c.data.size < v.rowCount then
      Size.reserve .number (v.rowCount * v.columns.length)
    let columns ← v.columns.mapM numbers
    return .numeric (.ofColumns v.rowCount policy.sentinel
      (columns.map fun c => c.map (decodeNumber policy v.fillValue)))

end StoredVariable

end ObsExport
