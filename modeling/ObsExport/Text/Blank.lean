/-!
# Blank text

A text is blank if it holds nothing but white space, in the sense of the Unicode property
`White_Space`: the control characters from tab to carriage return, the space characters of every
width, and the line and paragraph separators. A joiner or a zero-width space is no white space.
-/

namespace ObsExport.Text

/-- Whether a character is white space. -/
def isWhite (c : Char) : Bool :=
  let n := c.toNat
  (0x09 ≤ n && n ≤ 0x0D) || n == 0x20 || n == 0x85 || n == 0xA0 || n == 0x1680
    || (0x2000 ≤ n && n ≤ 0x200A) || n == 0x2028 || n == 0x2029 || n == 0x202F || n == 0x205F
    || n == 0x3000

/-- Whether nothing of a text is left once its white space is taken away. -/
def isBlank (s : String) : Bool := s.toList.all isWhite

end ObsExport.Text
