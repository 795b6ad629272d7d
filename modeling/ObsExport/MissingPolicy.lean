/-!
# Missing values

Decoders write a reserved number, the sentinel, where a record holds no observation. A value counts
as missing unless it lies below the sentinel by more than a tolerance, so everything from just
under the sentinel upward is missing, and so is NaN, which lies below nothing.
-/

namespace ObsExport

/-- The sentinel for "no observation" and the tolerance below it. -/
structure MissingPolicy where
  sentinel : Float
  epsilon : Float
deriving DecidableEq

namespace MissingPolicy

/-- The convention of decoders unless settings say otherwise. -/
def standard : MissingPolicy := ⟨1e11, 1e-9⟩

instance : Inhabited MissingPolicy := ⟨standard⟩

/-- Whether a value is an observation. -/
def isPresent (p : MissingPolicy) (x : Float) : Bool := decide (x < p.sentinel - p.epsilon)

/-- Whether a value stands for "no observation". -/
def isMissing (p : MissingPolicy) (x : Float) : Bool := !p.isPresent x

/-- Whether some value is an observation. -/
def anyPresent (p : MissingPolicy) (xs : List Float) : Bool := xs.any p.isPresent

/-- The observation in a slot. -/
def observed? (p : MissingPolicy) (x : Float) : Option Float :=
  if p.isPresent x then some x else none

/-- What is not missing is present. -/
theorem isMissing_eq_false_iff {p : MissingPolicy} {x : Float} :
    p.isMissing x = false ↔ p.isPresent x = true := by simp [isMissing]

/-- What is observed of a number is the number, if it is present. -/
theorem observed?_eq_some_iff {p : MissingPolicy} {x y : Float} :
    p.observed? x = some y ↔ p.isPresent x = true ∧ x = y := by
  unfold observed?
  split <;> simp_all

end MissingPolicy

end ObsExport
