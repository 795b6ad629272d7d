import ObsExport.Grid
import ObsExport.MissingPolicy

/-!
# The values of one field

Across a batch a field is numeric, a grid with a row per record, or textual, one text per record.
The same two shapes serve the fields a decoder hands over and the artifacts that export variables
resolve to. Missing entries are the sentinel in a grid and the empty text otherwise.
-/

namespace ObsExport

/-- Values across a batch. -/
inductive Values where
  | numeric (grid : Grid)
  | text (entries : List String)
deriving DecidableEq

namespace Values

/-- The number of records. -/
def height : Values → Nat
  | numeric grid => grid.height
  | text entries => entries.length

/-- The number of columns; text has one. -/
def width : Values → Nat
  | numeric grid => grid.cols
  | text _ => 1

/-- How many values are there to be listed. -/
def stored : Values → Nat
  | numeric grid => grid.values.length
  | text entries => entries.length

/-- Whether the values are texts. -/
def isText : Values → Bool
  | numeric _ => false
  | text _ => true

/-- The grid of numeric values. -/
def grid? : Values → Option Grid
  | numeric grid => some grid
  | text _ => none

/-- The texts of textual values. -/
def texts? : Values → Option (List String)
  | numeric _ => none
  | text entries => some entries

/-- A line per record. -/
def display : Values → String
  | numeric grid => grid.text
  | text entries => String.join (entries.map (· ++ "\n"))

/-- The values of the listed records, in the listed order. -/
def select (indices : List Nat) : Values → Except Error Values
  | numeric grid => (grid.select indices).map numeric
  | text entries => do
    Size.reserveBeyond entries.length .text indices.length
    return text (← indices.mapM fun i => required entries[i]?)

/-- Whether some entry is an observation. Values without records have nothing that could be
missing, so they count as observed. -/
def hasObservation (policy : MissingPolicy) : Values → Bool
  | numeric grid => grid.height == 0 || policy.anyPresent grid.values
  | text entries => entries.isEmpty || entries.any fun s => !s.isEmpty

end Values

end ObsExport
