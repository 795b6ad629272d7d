import ObsExport.Transform.Chain
import ObsExport.FieldTable

/-!
# Variables read from a field

A variable may name several candidate fields. The first one that is in the batch and holds an
observation is read; its numbers go through the transform chain, texts take none. What goes wrong
with that field is the answer: a later candidate is never tried for it.
-/

namespace ObsExport

/-- Candidate fields, at least one, and the transforms of the one that is read. -/
structure Candidates where
  names : List String
  transforms : List Transform
  nonempty : names ≠ []
deriving DecidableEq

namespace Candidates

/-- Candidates must be some. -/
def make (names : List String) (transforms : List Transform) : Except Error Candidates :=
  if h : names = [] then .error (.configuration .noCandidate) else .ok ⟨names, transforms, h⟩

/-- The values of the field that is read, transformed. -/
def finish (c : Candidates) (target : String) (policy : MissingPolicy) :
    Values → Except Error Values
  | .numeric grid => (Transform.run target policy c.transforms grid).outcome.map .numeric
  | .text entries =>
    if c.transforms.isEmpty then .ok (.text entries) else .error (.type target .transforms)

theorem finish_text (c : Candidates) (target : String) (policy : MissingPolicy)
    (entries : List String) : c.finish target policy (.text entries) =
      if c.transforms.isEmpty then .ok (.text entries) else .error (.type target .transforms) := rfl

/-- Tries some candidates in order. -/
def resolveFrom (c : Candidates) (target : String) (policy : MissingPolicy) (data : FieldTable) :
    List String → Logged Values
  | [] => Logged.fail (.unresolvable target c.names)
  | name :: later =>
    match data.find? name with
    | none => do
      Logged.report (.candidateAbsent target name)
      c.resolveFrom target policy data later
    | some values =>
      if values.hasObservation policy then do
        Logged.report (.candidateChosen target name)
        c.finish target policy values
      else do
        Logged.report (.candidateMissing target name)
        c.resolveFrom target policy data later

/-- The values of the first usable candidate. -/
def resolve (c : Candidates) (target : String) (policy : MissingPolicy) (data : FieldTable) :
    Logged Values :=
  c.resolveFrom target policy data c.names

/-- Reads a variable that names its fields. -/
def ofConfig (variableBlock : Cursor) : Except Error Candidates := do
  let names ← (← variableBlock.child "mnemonic").asStrings
  if names.isEmpty then
    throw (.invalidConfig (variableBlock.path ++ "::mnemonic") .fieldName)
  make names (← Transform.chainOfConfig variableBlock)

end Candidates

end ObsExport
