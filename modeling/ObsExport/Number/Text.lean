import ObsExport.Number.Shortest

/-!
# Numbers as text, and text as numbers

A number is written with the fewest digits that read back as the same double. Two styles are in
use, and each is one value of `NumberStyle`: `NumberStyle.plain` for values in tables and messages,
which never has an exponent and ends a whole number without a point, and `NumberStyle.labelled`
for the operand in the name of a transform, which marks whole numbers with `.0` and changes to an
exponent for very large and very small magnitudes.

`Number.parse?` reads decimals with or without exponent, correctly rounded, and the names of the
values that have no digits.
-/

namespace ObsExport

/-- The choices that the shortest digits leave open. -/
structure NumberStyle where
  /-- What a whole number ends with in positional notation. -/
  wholeEnd : String
  /-- The exponents `lo ≤ e < hi` of the leading digit that are written positionally; with none
  given, all are. -/
  positional : Option (Int × Int)

/-- No exponent ever, and no point behind whole numbers. -/
def NumberStyle.plain : NumberStyle := ⟨"", none⟩

/-- Whole numbers end in `.0`; below `1e-4` and from `1e16` on an exponent is written. -/
def NumberStyle.labelled : NumberStyle := ⟨".0", some (-4, 16)⟩

namespace Decimal

/-- The decimal digits of a number, leading digit first. -/
def digitText (d : Decimal) : String := toString d.digits

/-- The exponent of the leading digit. -/
def leadingExponent (d : Decimal) : Int := d.scale + (digitCount d.digits : Int) - 1

/-- Positional notation: zeros fill the places between the digits and the point. -/
def positionalText (wholeEnd : String) (d : Decimal) : String :=
  let ds := d.digitText
  if 0 ≤ d.scale then ds ++ String.ofList (List.replicate d.scale.toNat '0') ++ wholeEnd
  else
    let places := (-d.scale).toNat
    let cs := List.replicate (places + 1 - ds.length) '0' ++ ds.toList
    let whole := cs.length - places
    String.ofList (cs.take whole) ++ "." ++ String.ofList (cs.drop whole)

/-- One digit before the point, the rest behind it, then the exponent. -/
def exponentText (d : Decimal) : String :=
  match d.digitText.toList with
  | [] => ""
  | c :: cs =>
    let behind := if cs.isEmpty then "" else "." ++ String.ofList cs
    String.singleton c ++ behind ++ "e" ++ toString d.leadingExponent

end Decimal

namespace Number

/-- The text of a magnitude in a style. Zero is always positional. -/
def magnitudeText (style : NumberStyle) (d : Decimal) : String :=
  match style.positional with
  | none => d.positionalText style.wholeEnd
  | some (lo, hi) =>
    if d.digits = 0 ∨ (lo ≤ d.leadingExponent ∧ d.leadingExponent < hi) then
      d.positionalText style.wholeEnd
    else d.exponentText

/-- The text of a double in a style. Zero keeps its sign; NaN has none. -/
def format (style : NumberStyle) (x : Float) : String :=
  match Binary.ofFloat? x with
  | some b => (if b.negative then "-" else "") ++ magnitudeText style (Decimal.shortest b)
  | none => if x.isNaN then "NaN" else if x < 0 then "-inf" else "inf"

/-- The text of a double in tables and messages. -/
def text (x : Float) : String := format .plain x

/-- The text of a double as an operand. -/
def label (x : Float) : String := format .labelled x

/-! ### Reading -/

/-- The value of `m * 10 ^ e`, rounded to the nearest double. Exponents far outside the range of
doubles are answered without computing the power. -/
def ofDecimal (m : Nat) (e : Int) : Float :=
  let top := (Decimal.digitCount m : Int) + e
  if m = 0 ∨ top < -330 then 0
  else if 310 < top then 1 / 0
  else if 0 ≤ e then Float.ofScientific m false e.toNat
  else Float.ofScientific m true (-e).toNat

/-- The number a row of decimal digits spells, continuing from `n`. -/
def digitsValue (n : Nat) (ds : List Char) : Nat :=
  ds.foldl (fun n c => 10 * n + (c.toNat - '0'.toNat)) n

/-- A row of digits with an optional sign in front, as an exponent has it. -/
def signedDigits? (cs : List Char) : Option Int :=
  let (negative, ds) := match cs with
    | '-' :: ds => (true, ds)
    | '+' :: ds => (false, ds)
    | ds => (false, ds)
  if ds.isEmpty ∨ ¬ ds.all Char.isDigit then none
  else some (if negative then -(digitsValue 0 ds : Int) else digitsValue 0 ds)

/-- The magnitude that a decimal without sign spells: digits with at most one point among them, at
least one digit, and an exponent at will. -/
def magnitude? (cs : List Char) : Option Float := do
  let whole := cs.takeWhile Char.isDigit
  let rest := cs.dropWhile Char.isDigit
  let (places, rest) := match rest with
    | '.' :: rest => (rest.takeWhile Char.isDigit, rest.dropWhile Char.isDigit)
    | rest => ([], rest)
  if whole.isEmpty && places.isEmpty then none
  else
    let exponent ← match rest with
      | [] => some 0
      | c :: rest => if c = 'e' ∨ c = 'E' then signedDigits? rest else none
    some (ofDecimal (digitsValue 0 (whole ++ places)) (exponent - places.length))

/-- The magnitude that a text without sign spells, the names of infinity and NaN included. -/
def unsigned? (cs : List Char) : Option Float :=
  match String.ofList (cs.map Char.toLower) with
  | "inf" => some (1 / 0)
  | "infinity" => some (1 / 0)
  | "nan" => some (0 / 0)
  | _ => magnitude? cs

/-- Reads the text of a double. -/
def parse? (s : String) : Option Float :=
  match s.toList with
  | '-' :: cs => (unsigned? cs).map (- ·)
  | '+' :: cs => unsigned? cs
  | cs => unsigned? cs

end Number

end ObsExport
