import ObsExport.Number.Binary

/-!
# The shortest decimal of a double

Every finite double is the only one in some interval of real numbers: those that round to it. Of
the decimals in that interval, `Decimal.shortest` takes one with the fewest significant digits, of
these the nearest to the double itself, and of two equally near ones the larger.

The search is exact. The interval's ends lie half a unit (below a power of two, a quarter unit)
from the value, so with everything multiplied by four the value and both ends are integers over
one common denominator. On the decimal grid of `n` digits only the two grid points around the
value need testing: if any point of the grid lies in the interval, so does one of these two.
Seventeen digits always suffice, which bounds the search.
-/

namespace ObsExport

/-- The number `digits * 10 ^ scale`. -/
structure Decimal where
  digits : Nat
  scale : Int
deriving DecidableEq, Repr

namespace Decimal

/-- How many decimal digits a number has; zero has one. -/
def digitCount (n : Nat) : Nat := if n < 10 then 1 else digitCount (n / 10) + 1

/-- The exponent `e` with `10 ^ e ≤ num / den < 10 ^ (e + 1)`, for positive arguments. -/
def leading (num den : Nat) : Int :=
  if den ≤ num then (digitCount (num / den) : Int) - 1
  else
    let k := digitCount (den / num)
    if den ≤ num * Nat.pow 10 (k - 1) then -((k : Int) - 1) else -(k : Int)

/-- A positive double between the ends of its interval, all four times enlarged:
`low / den`, `mid / den` and `high / den`, the ends included where `closed`. -/
structure Interval where
  low : Nat
  mid : Nat
  high : Nat
  den : Nat
  closed : Bool

/-- The reals that round to a positive value. The gap below a power of two is half as wide, unless
the value is the least with its exponent bits; an even mantissa takes ties from both sides. -/
def Interval.around (b : Binary) : Interval where
  low := (4 * b.mantissa - if b.mantissa = 0x10000000000000 ∧ b.exponent ≠ -1074 then 1 else 2)
    <<< b.exponent.toNat
  mid := (4 * b.mantissa) <<< b.exponent.toNat
  high := (4 * b.mantissa + 2) <<< b.exponent.toNat
  den := 4 <<< (-b.exponent).toNat
  closed := b.mantissa % 2 = 0

/-- Whether `num / den'` lies in the interval. -/
def Interval.holds (i : Interval) (num den' : Nat) : Bool :=
  if i.closed then i.low * den' ≤ num * i.den && num * i.den ≤ i.high * den'
  else i.low * den' < num * i.den && num * i.den < i.high * den'

/-- The point of the grid of multiples of `10 ^ scale` that lies in the interval and is nearest to
its middle, the upper one of two equally near. -/
def Interval.pick (i : Interval) (scale : Int) : Option Decimal :=
  let up := Nat.pow 10 scale.toNat
  let down := Nat.pow 10 (-scale).toNat
  let unit := i.den * up
  let below := i.mid * down / unit
  let rest := i.mid * down % unit
  -- Only the neighbours of the value on the grid can be in the interval if any point is.
  let lower := i.holds (below * up) down
  let upper := i.holds ((below + 1) * up) down
  -- With half a unit or more left over, the upper neighbour is not the farther one.
  if upper && (!lower || unit ≤ 2 * rest) then some ⟨below + 1, scale⟩
  else if lower then some ⟨below, scale⟩
  else none

/-- Tries one digit, then two, and so on; with `fuel` exhausted the last grid decides. -/
def Interval.search (i : Interval) (scale : Int) : Nat → Decimal
  | 0 => ⟨i.mid * Nat.pow 10 (-scale).toNat / (i.den * Nat.pow 10 scale.toNat), scale⟩
  | fuel + 1 =>
    match i.pick scale with
    | some d => d
    | none => i.search (scale - 1) fuel

/-- Removes zeros at the end of the digits. -/
def trim (d : Decimal) : Decimal :=
  if h : d.digits ≠ 0 ∧ d.digits % 10 = 0 then trim ⟨d.digits / 10, d.scale + 1⟩ else d
termination_by d.digits
decreasing_by omega

/-- The shortest decimal that reads back as the magnitude of a finite double. -/
def shortest (b : Binary) : Decimal :=
  if b.mantissa = 0 then ⟨0, 0⟩
  else
    let i := Interval.around b
    trim (i.search (leading i.mid i.den) 17)

end Decimal

end ObsExport
