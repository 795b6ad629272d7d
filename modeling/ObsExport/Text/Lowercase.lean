import ObsExport.Text.CaseTables

/-!
# Lower case

The lower-case form of a text goes character by character, with two exceptions. The capital I with
a dot becomes two characters, an i and the dot; and the capital sigma takes its final form at the
end of a word, that is, when a letter stands before it and none behind, not counting the characters
that the third table of `CaseTables` lists.
-/

namespace ObsExport.Text

/-- Whether a code point lies in some range of a table. -/
def inRanges (table : List (Nat × Nat)) (n : Nat) : Bool :=
  table.any fun r => r.1 ≤ n && n ≤ r.2

/-- Whether a character is a letter of some case. -/
def isCased (c : Char) : Bool := inRanges casedRanges c.toNat

/-- Whether a character is passed over when the letters around are looked at. -/
def isIgnorable (c : Char) : Bool := inRanges ignorableRanges c.toNat

/-- The lower-case form of a character whose form is one character. -/
def lowerChar (c : Char) : Char :=
  let n := c.toNat
  match lowerRanges.find? fun r => r.first ≤ n && n ≤ r.last && (n - r.first) % r.step == 0 with
  | some r => Char.ofNat ((n : Int) + r.shift).toNat
  | none => c

/-- Whether the next character that counts is a letter of some case. -/
def meetsLetter (cs : List Char) : Bool :=
  ((cs.dropWhile isIgnorable).head?.map isCased).getD false

/-- The lower-case form of what follows some characters, which are listed latest first. -/
def lowerAfter (before : List Char) : List Char → List Char
  | [] => []
  | c :: rest =>
    let form :=
      -- The sigma alone looks at its neighbours.
      if c = 'Σ' then [if meetsLetter before && !meetsLetter rest then 'ς' else 'σ']
      else if c = 'İ' then ['i', '\u0307']
      else [lowerChar c]
    form ++ lowerAfter (c :: before) rest

/-- The lower-case form of a text. -/
def lowercase (s : String) : String := String.ofList (lowerAfter [] s.toList)

end ObsExport.Text
