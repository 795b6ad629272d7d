import ObsExport.Config.Tree
import ObsExport.Error
import ObsExport.MissingPolicy
import ObsExport.Number.Binary
import ObsExport.Text.Blank

/-!
# Settings

The settings of a pipeline: the missing-value convention, the name of the dimension that counts
records, and how files are written. Settings are read from a map in which every key may be left
out, or from a list with the values in the order of the fields, and every value must be of its
type; unlike elsewhere in a document, null is not the same as nothing (`Settings.ofTree?`). Reading
does not judge the values, `Settings.check` does, and it accepts exactly the settings that
`Settings.Usable` describes (`check_eq_ok_iff`).
-/

namespace ObsExport

/-- The settings of a pipeline. -/
structure Settings where
  missingValue : Float
  missingEpsilon : Float
  locationDimension : String
  compression : Codec
  rowGroupSize : Nat
  enableStatistics : Bool
  skipEmptyPartitions : Bool
deriving DecidableEq

namespace Settings

/-- The settings of a pipeline that says nothing about them. -/
def standard : Settings where
  missingValue := MissingPolicy.standard.sentinel
  missingEpsilon := MissingPolicy.standard.epsilon
  locationDimension := "Location"
  compression := .snappy
  rowGroupSize := 100000
  enableStatistics := true
  skipEmptyPartitions := true

instance : Inhabited Settings := ⟨standard⟩

/-- The missing-value convention. -/
def missing (s : Settings) : MissingPolicy := ⟨s.missingValue, s.missingEpsilon⟩

/-! ### Judging settings -/

/-- Fails for settings that a pipeline cannot work with. -/
def check (s : Settings) : Except Error Unit :=
  if !Binary.isFinite s.missingValue then .error (.configuration .missingValue)
  else if !Binary.isFinite s.missingEpsilon || s.missingEpsilon < 0 then
    .error (.configuration .missingEpsilon)
  else if Text.isBlank s.locationDimension then .error (.configuration .locationDimension)
  else if s.rowGroupSize = 0 then .error (.configuration .rowGroupSize)
  else .ok ()

/-- A finite sentinel, a finite tolerance that is not negative, a name for the location dimension
and row groups with rows. -/
def Usable (s : Settings) : Prop :=
  Binary.isFinite s.missingValue = true ∧ Binary.isFinite s.missingEpsilon = true ∧ ¬ s.missingEpsilon < 0 ∧
    Text.isBlank s.locationDimension = false ∧ 0 < s.rowGroupSize

/-- Settings pass the check exactly if they can be used. -/
theorem check_eq_ok_iff {s : Settings} : s.check = .ok () ↔ s.Usable := by
  unfold check Usable
  cases Binary.isFinite s.missingValue <;> cases Binary.isFinite s.missingEpsilon <;>
    by_cases he : s.missingEpsilon < 0 <;> cases Text.isBlank s.locationDimension <;>
    by_cases hr : s.rowGroupSize = 0 <;> simp [he, hr, Nat.pos_iff_ne_zero]

/-! ### Reading settings -/

/-- Reads a codec: its name, or a map of its name to null. -/
def codecOfTree? : Tree → Option Codec
  | .string name => Codec.ofName? name
  | .map [(name, .null)] => Codec.ofName? name
  | _ => none

/-- The value of a field that may be left out. -/
def fieldOr {α : Type} (standard : α) (read : Tree → Option α) : Option Tree → Option α
  | some t => read t
  | none => some standard

/-- Reads the fields, each of which may be left out. -/
def ofFields? (field : Nat → String → Option Tree) : Option Settings := do
  return {
    missingValue := ← fieldOr standard.missingValue Tree.asFloat? (field 0 "missingValue")
    missingEpsilon := ← fieldOr standard.missingEpsilon Tree.asFloat? (field 1 "missingEpsilon")
    locationDimension :=
      ← fieldOr standard.locationDimension Tree.asString? (field 2 "locationDimension")
    compression := ← fieldOr standard.compression codecOfTree? (field 3 "compression")
    rowGroupSize := ← fieldOr standard.rowGroupSize Tree.asNatural? (field 4 "rowGroupSize")
    enableStatistics :=
      ← fieldOr standard.enableStatistics Tree.asBool? (field 5 "enableStatistics")
    skipEmptyPartitions :=
      ← fieldOr standard.skipEmptyPartitions Tree.asBool? (field 6 "skipEmptyPartitions") }

/-- Reads settings from a map by key or from a list by position. -/
def ofTree? : Tree → Option Settings
  | .map entries => ofFields? fun _ key => Dict.lookup key entries
  -- A list may end early, which leaves out the last fields.
  | .list items => if 7 < items.length then none else ofFields? fun i _ => items[i]?
  | _ => none

/-- Reads settings; what cannot be read is no proper document. -/
def ofTree (t : Tree) : Except Error Settings :=
  match ofTree? t with
  | some s => .ok s
  | none => .error .configParse

end Settings

end ObsExport
