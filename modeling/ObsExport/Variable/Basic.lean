import ObsExport.Variable.Candidates
import ObsExport.Variable.Timestamp

/-!
# Variables

A variable makes one artifact out of the fields of a batch. It is a timestamp or it is read from
the first usable of some candidate fields; its block in a document holds the key of one of the two
and not of both. `Variable.fields` lists every field that a variable may look at.
-/

namespace ObsExport

/-- What is exported under one name. -/
inductive Variable where
  | candidates (c : Candidates)
  | timestamp (t : Timestamp)
deriving DecidableEq

namespace Variable

/-- Every field that may be read. -/
def fields : Variable → List String
  | candidates c => c.names
  | timestamp t => t.fields

/-- The artifact for a batch. -/
def resolve (v : Variable) (target : String) (policy : MissingPolicy) (data : FieldTable) :
    Logged Values :=
  match v with
  | candidates c => c.resolve target policy data
  | timestamp t => t.resolve target policy data

/-- Reads the block of a variable. -/
def ofConfig (c : Cursor) : Logged Variable := do
  c.check .exportVariable
  if c.has "datetime" && c.has "mnemonic" then
    Logged.fail (.invalidConfig c.path .datetimeOrMnemonic)
  else
    match c.get? "datetime" with
    | some block => do
      if c.has "transforms" then Logged.report (.transformsIgnored c.path)
      return timestamp (← Timestamp.ofConfig block)
    | none =>
      if c.has "mnemonic" then return candidates (← Candidates.ofConfig c)
      else Logged.fail (.unknownKind .exportVariable c.path c.firstKey)

end Variable

end ObsExport
