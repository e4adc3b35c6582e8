/-! # Blank characters

The characters with the Unicode property `White_Space`, and texts without the blanks at their
ends.
-/

namespace EventSim.Text

/-- The character has the property `White_Space`. -/
def isBlank (c : Char) : Bool :=
  let n := c.toNat
  (9 ≤ n && n ≤ 13) || n == 0x20 || n == 0x85 || n == 0xA0 || n == 0x1680 ||
    (0x2000 ≤ n && n ≤ 0x200A) || n == 0x2028 || n == 0x2029 || n == 0x202F || n == 0x205F ||
    n == 0x3000

/-- The text from its first character that is not blank on. -/
def trimStart (s : List Char) : List Char := s.dropWhile isBlank

/-- The text without the blanks at both ends. -/
def trim (s : List Char) : List Char := (trimStart (trimStart s).reverse).reverse

end EventSim.Text
