import ObsExport.Codec

/-!
# Columns and stored variables

A column has a name and a value per record, where null stands for a missing one; all its values are
numbers or all are texts. A stored variable is a variable in columns: its dimensions with their
sizes and chunks, how missing values are written, and one column, or for a variable of two
dimensions one for each step of the second.
-/

namespace ObsExport

/-- The values of a column. -/
inductive ColumnData where
  | numeric (values : List (Option Float))
  | text (values : List (Option String))
deriving DecidableEq

/-- The number of values. -/
def ColumnData.size : ColumnData → Nat
  | numeric values => values.length
  | text values => values.length

/-- A named column. -/
structure Column where
  name : String
  data : ColumnData
deriving DecidableEq

/-- A dimension with its size in the partition at hand. -/
structure Dimension where
  name : String
  size : Nat
deriving DecidableEq, Repr

/-- A variable in columns. -/
structure StoredVariable where
  name : String
  dimensions : List String
  shape : List Nat
  chunks : List Nat
  fillValue : Option Float
  compression : Option Codec
  longName : Option String
  units : Option String
  isText : Bool
  columns : List Column
deriving DecidableEq

/-- The number of records, which is the size of the first dimension. -/
def StoredVariable.rowCount (v : StoredVariable) : Nat := v.shape.head?.getD 0

end ObsExport
