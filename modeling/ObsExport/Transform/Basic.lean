import ObsExport.Number.Text

/-!
# Value transforms

A transform is one arithmetic step on an observed value. `Transform.value` is what it does and
`Transform.label` how messages name it.
-/

namespace ObsExport

/-- One step of a transform chain. -/
inductive Transform where
  /-- Multiplies by a factor. -/
  | scale (factor : Float)
  /-- Adds an amount. -/
  | offset (amount : Float)
deriving DecidableEq

namespace Transform

/-- The value after the step. -/
def value : Transform → Float → Float
  | scale factor, x => x * factor
  | offset amount, x => x + amount

/-- The step's name with its operand. -/
def label : Transform → String
  | scale factor => "Scale(" ++ Number.label factor ++ ")"
  | offset amount => "Offset(" ++ Number.label amount ++ ")"

end Transform

end ObsExport
