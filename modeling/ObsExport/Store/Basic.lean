import ObsExport.Event
import ObsExport.Store.Materialize

/-!
# Stores

A store holds the variables of one partition in the order in which they were written. Its variables
have different names, so have their columns, and all have the same number of records: a variable of
which that would not be true is refused, and the store stays as it is (`Store.write`).

What can be had from a store are its variables (`Store.read`), all columns together as a frame
(`Store.frame`), and a file. A file has one codec, so the variables that ask for one must agree
(`Store.codec`).
-/

namespace ObsExport

/-- The variables of a partition, in the order in which they were written. -/
structure Store where
  vars : List StoredVariable
deriving DecidableEq

/-- Columns of one height. -/
structure Frame where
  height : Nat
  columns : List Column
deriving DecidableEq

/-- Where a file is to be written, and whether a file can be created there. -/
structure Destination where
  path : String
  creatable : Bool
deriving DecidableEq, Repr

namespace Store

/-- The store without variables. -/
def empty : Store := ⟨[]⟩

/-- The variable of a name. -/
def find? (s : Store) (name : String) : Option StoredVariable :=
  s.vars.find? fun v => v.name = name

/-- The names of the variables. -/
def names (s : Store) : List String := s.vars.map StoredVariable.name

/-- The number of records, once there is a variable. -/
def rows? (s : Store) : Option Nat := s.vars.head?.map StoredVariable.rowCount

/-- The number of records; a store without variables has none. -/
def rowCount (s : Store) : Nat := s.rows?.getD 0

/-- The columns of all variables. -/
def columns (s : Store) : List Column := s.vars.flatMap StoredVariable.columns

/-- The names of all columns. -/
def columnNames (s : Store) : List String := s.columns.map Column.name

/-! ### Writing -/

/-- Why a store refuses a variable. -/
def refusal? (s : Store) (v : StoredVariable) : Option Error :=
  if v.name ∈ s.names then some (.duplicateName .outputVariable v.name)
  else
    -- A variable that is wrong by itself is refused before it is compared with others.
    match v.columns.find? fun c => c.data.size ≠ v.rowCount with
    | some c => some (.shape v.name (.columnLength c.name c.data.size v.rowCount))
    | none =>
      match v.columns.find? fun c => c.name ∈ s.columnNames with
      | some c => some (.duplicateName .outputColumn c.name)
      | none =>
        match s.rows? with
        | some rows =>
          if rows ≠ v.rowCount then some (.shape v.name (.storeRows v.rowCount rows)) else none
        | none => none

/-- Adds a variable, unless it is refused. -/
def write (s : Store) (v : StoredVariable) : Logged Store :=
  match s.refusal? v with
  | some e => Logged.fail e
  | none => ⟨[.variableStored v.name v.dimensions], .ok ⟨s.vars ++ [v]⟩⟩

/-! ### Reading -/

/-- The artifact of a variable. -/
def read (s : Store) (name : String) (policy : MissingPolicy) : Except Error Values :=
  match s.find? name with
  | some v => v.toValues policy
  | none => .error (.fieldNotFound name)

/-- All columns as one frame. -/
def frame (s : Store) : Except Error Frame :=
  match s.columns with
  | [] => .ok ⟨0, []⟩
  | c :: rest =>
    if s.columnNames.Nodup ∧ ∀ d ∈ rest, d.data.size = c.data.size then
      .ok ⟨c.data.size, c :: rest⟩
    else .error (.storage .assembly)

/-- The codec that variables agree on, after one that was chosen before. -/
def chosenCodec? (chosen : Option (String × Codec)) :
    List StoredVariable → Except Error (Option (String × Codec))
  | [] => .ok chosen
  | v :: later =>
    match v.compression, chosen with
    | none, _ => chosenCodec? chosen later
    | some codec, none => chosenCodec? (some (v.name, codec)) later
    | some codec, some (first, earlier) =>
      if codec = earlier then chosenCodec? chosen later
      else .error (.invalidConfig (v.name ++ "::compression") (.sameCodec earlier first))

/-- The codec of a file: the one that variables ask for, or else that of the settings. -/
def codec (s : Store) (settings : Settings) : Except Error Codec :=
  (chosenCodec? none s.vars).map fun chosen => (chosen.map Prod.snd).getD settings.compression

/-- The number of records that are written to a file. Row groups without rows cannot be written. -/
def writeFile (s : Store) (settings : Settings) (destination : Destination) : Except Error Nat := do
  let _ ← s.codec settings
  let frame ← s.frame
  -- The file is created only once there is a frame to write.
  if !destination.creatable then throw (.io (.createFile destination.path))
  if settings.rowGroupSize = 0 then throw .outOfBounds
  return frame.height

end Store

end ObsExport
