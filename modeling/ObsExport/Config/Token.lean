import ObsExport.Config.Tree

/-!
# Tokens of a document

The text of a document is a row of tokens with blanks between them: brackets, commas and colons,
the three words `null`, `true` and `false`, strings and numbers. `Token.scan?` cuts a text into
tokens or finds that it cannot.

Strings hold every character but the control characters, the quote and the backslash, which are
written as escapes. An escape names a character by its UTF-16 unit or, beyond the first 65536, by
two units; a unit that is half of a character by itself names nothing.

A number without point and exponent is an integer while it fits 64 bits. Any other number is a
real: its leading digits, as many as fit 64 bits, times a power of ten (`Token.ofParts?`).
-/

namespace ObsExport

/-- A token of a document. -/
inductive Token where
  | openMap
  | closeMap
  | openList
  | closeList
  | comma
  | colon
  | string (s : String)
  /-- A word or a number. -/
  | scalar (value : Tree)

namespace Token

/-! ### Strings -/

/-- The value of four hexadecimal digits. -/
def unit? (a b c d : Char) : Option Nat :=
  [a, b, c, d].foldlM
    (fun n h =>
      let digit? :=
        if h.isDigit then some (h.toNat - '0'.toNat)
        else if 'a' ≤ h ∧ h ≤ 'f' then some (h.toNat - 'a'.toNat + 10)
        else if 'A' ≤ h ∧ h ≤ 'F' then some (h.toNat - 'A'.toNat + 10)
        else none
      digit?.map (16 * n + ·))
    0

/-- The character an escape of one letter stands for. -/
def escaped? : Char → Option Char
  | '"' => some '"'
  | '\\' => some '\\'
  | '/' => some '/'
  | 'b' => some '\x08'
  | 'f' => some '\x0c'
  | 'n' => some '\n'
  | 'r' => some '\r'
  | 't' => some '\t'
  | _ => none

/-- Whether a UTF-16 unit is the first of two. -/
def isHigh (u : Nat) : Bool := 0xD800 ≤ u && u < 0xDC00

/-- Whether a UTF-16 unit is the second of two. -/
def isLow (u : Nat) : Bool := 0xDC00 ≤ u && u < 0xE000

/-- The rest of a string after its opening quote, and what follows the closing one. -/
def stringBody? : List Char → Option (List Char × List Char)
  | [] => none
  | '"' :: rest => some ([], rest)
  | '\\' :: 'u' :: a :: b :: c :: d :: '\\' :: 'u' :: e :: f :: g :: h :: rest => do
    let high ← unit? a b c d
    if isHigh high then
      let low ← unit? e f g h
      if isLow low then
        let (s, rest) ← stringBody? rest
        some (Char.ofNat (0x10000 + (high - 0xD800) * 0x400 + (low - 0xDC00)) :: s, rest)
      else none
    else if isLow high then none
    else
      -- The first unit is a character of its own, so the second escape is read again.
      let (s, rest) ← stringBody? ('\\' :: 'u' :: e :: f :: g :: h :: rest)
      some (Char.ofNat high :: s, rest)
  | '\\' :: 'u' :: a :: b :: c :: d :: rest => do
    let u ← unit? a b c d
    if isHigh u || isLow u then none
    else
      let (s, rest) ← stringBody? rest
      some (Char.ofNat u :: s, rest)
  | '\\' :: c :: rest => do
    let c ← escaped? c
    let (s, rest) ← stringBody? rest
    some (c :: s, rest)
  | c :: rest =>
    if c.toNat < 0x20 ∨ c = '\\' then none
    else do
      let (s, rest) ← stringBody? rest
      some (c :: s, rest)

/-! ### Numbers -/

/-- `10 ^ e` as a double. -/
def tenTo (e : Nat) : Float := Float.ofScientific 1 false e

/-- Divides by a power of ten that no double holds, one part after the other. -/
def divideTen (x : Float) (e : Nat) : Float :=
  if e ≤ 308 then x / tenTo e
  else if x == 0 then x
  else divideTen (x / tenTo 308) (e - 308)
termination_by e
decreasing_by omega

/-- The value of `m * 10 ^ e`, by one multiplication or division where the power is a double. A
value beyond the doubles is none. -/
def scaled? (m : Nat) (e : Int) : Option Float :=
  let x := Float.ofNat m
  if e < 0 then some (divideTen x (-e).toNat)
  -- A power beyond the doubles is refused unless there is nothing to multiply.
  else if 308 < e then if m = 0 then some x else none
  else
    let y := x * tenTo e.toNat
    if y.isInf then none else some y

/-- Adds digits to a number while it fits 64 bits, and counts those that no longer do. -/
def gather (n : Nat) : List Char → Nat × Nat
  | [] => (n, 0)
  | c :: rest =>
    let n' := 10 * n + (c.toNat - '0'.toNat)
    if n' < 0x10000000000000000 then gather n' rest else (n, rest.length + 1)

/-- The value of a decimal with a point or an exponent, or with more digits than 64 bits hold:
digits that do not fit move the point before it and are dropped behind it. -/
def ofParts? (whole places : List Char) (exponent : Int) : Option Float :=
  let (n, beyond) := gather 0 whole
  let (n, dropped) := gather n places
  scaled? n (exponent + beyond - (places.length - dropped))

/-- The digits of an exponent, with the sign before them. -/
def exponent? : List Char → Option (Int × List Char)
  | cs =>
    let (negative, cs) := match cs with
      | '-' :: cs => (true, cs)
      | '+' :: cs => (false, cs)
      | cs => (false, cs)
    let ds := cs.takeWhile Char.isDigit
    if ds.isEmpty then none
    else
      let n : Int := ds.foldl (fun n c => 10 * n + (c.toNat - '0'.toNat)) 0
      some (if negative then -n else n, cs.dropWhile Char.isDigit)

/-- A number without sign: no zeros in front, digits on both sides of a point and behind the letter
of an exponent. The answer keeps the parts. -/
def parts? (cs : List Char) : Option ((List Char × Option (List Char) × Option Int) × List Char) :=
  do
    let (whole, rest) ← match cs with
      | '0' :: rest => some (['0'], rest)
      | cs =>
        let ds := cs.takeWhile Char.isDigit
        if ds.isEmpty then none else some (ds, cs.dropWhile Char.isDigit)
    let (places, rest) ← match rest with
      | '.' :: rest =>
        let ds := rest.takeWhile Char.isDigit
        if ds.isEmpty then none else some (some ds, rest.dropWhile Char.isDigit)
      | rest => some (none, rest)
    match rest with
    | 'e' :: rest => (exponent? rest).map fun (e, rest) => ((whole, places, some e), rest)
    | 'E' :: rest => (exponent? rest).map fun (e, rest) => ((whole, places, some e), rest)
    | rest => some ((whole, places, none), rest)

/-- The number of the parts. A negative integer has 63 bits, and negative zero is a real. -/
def number? (negative : Bool) :
    List Char × Option (List Char) × Option Int → Option Tree
  | (whole, none, none) =>
    let n := whole.foldl (fun n c => 10 * n + (c.toNat - '0'.toNat)) 0
    if negative then
      if 0 < n ∧ n ≤ 0x8000000000000000 then some (.integer (-n))
      else (ofParts? whole [] 0).map fun x => .ofFloat (-x)
    else if n < 0x10000000000000000 then some (.integer n)
    else (ofParts? whole [] 0).map .ofFloat
  | (whole, places, exponent) =>
    (ofParts? whole (places.getD []) (exponent.getD 0)).map fun x =>
      .ofFloat (if negative then -x else x)

/-! ### Cutting a text -/

/-- The blanks between tokens. -/
def isBlank (c : Char) : Bool := c = ' ' || c = '\t' || c = '\n' || c = '\r'

/-- The token a text begins with, and what follows it. -/
def next? : List Char → Option (Token × List Char)
  | '{' :: rest => some (openMap, rest)
  | '}' :: rest => some (closeMap, rest)
  | '[' :: rest => some (openList, rest)
  | ']' :: rest => some (closeList, rest)
  | ',' :: rest => some (comma, rest)
  | ':' :: rest => some (colon, rest)
  | '"' :: rest => (stringBody? rest).map fun (s, rest) => (string (String.ofList s), rest)
  | 'n' :: 'u' :: 'l' :: 'l' :: rest => some (scalar .null, rest)
  | 't' :: 'r' :: 'u' :: 'e' :: rest => some (scalar (.bool true), rest)
  | 'f' :: 'a' :: 'l' :: 's' :: 'e' :: rest => some (scalar (.bool false), rest)
  | '-' :: rest => do
    let (parts, rest) ← parts? rest
    let n ← number? true parts
    some (scalar n, rest)
  | cs => do
    let (parts, rest) ← parts? cs
    let n ← number? false parts
    some (scalar n, rest)

/-- Cuts a text into at most `fuel` tokens. -/
def scanFrom? : Nat → List Char → Option (List Token)
  | 0, cs => if (cs.dropWhile isBlank).isEmpty then some [] else none
  | fuel + 1, cs =>
    match cs.dropWhile isBlank with
    | [] => some []
    | c :: rest => do
      let (token, rest) ← next? (c :: rest)
      let tokens ← scanFrom? fuel rest
      some (token :: tokens)

/-- Cuts a text into tokens. No token is empty, so there are no more of them than characters. -/
def scan? (text : String) : Option (List Token) := scanFrom? text.length text.toList

end Token

end ObsExport
