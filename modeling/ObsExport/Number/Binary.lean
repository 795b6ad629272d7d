/-!
# The exact value of a finite double

A finite double is a whole number of some power of two. This module reads sign, mantissa and
exponent off the bit pattern and defines, in integer arithmetic and hence without any rounding,
the three questions that category codes, calendar components and epoch seconds ask of a value:

* `Binary.floor`: the greatest integer not above it;
* `Binary.round`: the nearest integer, halves going away from zero;
* `Binary.whole?`: the natural number it is, if it is one.

Each is total on `Binary`; `Binary.ofFloat?` is `none` exactly on the infinities and NaN. The last
part names the range of 64-bit signed integers, in which codes and seconds live.
-/

namespace ObsExport

/-- The number `(-1) ^ negative * mantissa * 2 ^ exponent`. Zero keeps its sign. -/
structure Binary where
  negative : Bool
  mantissa : Nat
  exponent : Int
deriving DecidableEq, Repr

namespace Binary

/-- Reads the three bit groups of a double: one sign bit, eleven exponent bits and fifty-two
mantissa bits. An exponent of zero marks the subnormals, which have no hidden leading bit; an
exponent of all ones is no finite value. -/
def ofFloat? (x : Float) : Option Binary :=
  let bits : Nat := x.toBits.toNat
  let negative := decide (0x8000000000000000 ≤ bits)
  let biased : Nat := bits / 0x10000000000000 % 0x800
  let fraction : Nat := bits % 0x10000000000000
  if biased = 2047 then none
  else if biased = 0 then some ⟨negative, fraction, -1074⟩
  else some ⟨negative, 0x10000000000000 + fraction, (biased : Int) - 1075⟩

/-- Whether a number is neither infinite nor NaN. -/
def isFinite (x : Float) : Bool := (ofFloat? x).isSome

/-- Puts the sign on a magnitude. -/
def signed (b : Binary) (magnitude : Nat) : Int :=
  if b.negative then -(magnitude : Int) else magnitude

/-- The denominator `2 ^ k` of the magnitude, with `k = 0` when the value is whole by its
exponent alone. -/
def denominator (b : Binary) : Nat := 1 <<< (-b.exponent).toNat

/-- The numerator that goes with `denominator`. -/
def numerator (b : Binary) : Nat := b.mantissa <<< b.exponent.toNat

/-- The greatest integer not above the value. -/
def floor (b : Binary) : Int := b.signed b.numerator / (b.denominator : Int)

/-- The integer nearest to the value; one half goes away from zero. -/
def round (b : Binary) : Int :=
  b.signed ((2 * b.numerator + b.denominator) / (2 * b.denominator))

/-- The natural number equal to the value. Negative zero is zero. -/
def whole? (b : Binary) : Option Nat :=
  if b.negative && b.mantissa != 0 then none
  else if b.numerator % b.denominator = 0 then some (b.numerator / b.denominator)
  else none

end Binary

/-! ### The range of 64-bit integers -/

/-- The least integer a signed 64-bit word holds. -/
abbrev leastWord : Int := -0x8000000000000000

/-- The greatest integer a signed 64-bit word holds. -/
abbrev greatestWord : Int := 0x7fffffffffffffff

/-- The integers a signed 64-bit word can hold. -/
def InWord (i : Int) : Prop := leastWord ≤ i ∧ i ≤ greatestWord

instance (i : Int) : Decidable (InWord i) := inferInstanceAs (Decidable (_ ∧ _))

/-- An integer that fits a signed 64-bit word, and nothing otherwise. -/
def word? (i : Int) : Option Int := if InWord i then some i else none

/-- The nearest integer that fits a signed 64-bit word. -/
def clampWord (i : Int) : Int := max leastWord (min greatestWord i)

/-- An integer is a word exactly if it lies between the ends of the range. -/
theorem word?_eq_some_iff {i j : Int} : word? i = some j ↔ InWord i ∧ i = j := by
  unfold word?
  split <;> simp_all

/-- Words are left as they are. -/
theorem clampWord_of_inWord {i : Int} (h : InWord i) : clampWord i = i := by
  unfold InWord at h
  unfold clampWord
  unfold leastWord greatestWord at *
  omega

end ObsExport
