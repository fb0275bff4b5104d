import CrateIndex.Text.Basic

/-!
# Blank text

White space is the 29 code points listed here. A line of nothing else is blank.
-/

namespace CrateIndex

/-- White space: the Unicode property, with the four information separators `U+001C` to
`U+001F`. -/
def CodePoint.isBlank (c : CodePoint) : Bool :=
  let n := c.val
  (9 ≤ n && n ≤ 13) || (28 ≤ n && n ≤ 32) || n = 0x85 || n = 0xA0 || n = 0x1680 ||
    (0x2000 ≤ n && n ≤ 0x200A) || n = 0x2028 || n = 0x2029 || n = 0x202F || n = 0x205F || n = 0x3000

/-- All of the text is white space. -/
def Text.isBlank (s : Text) : Bool := s.all CodePoint.isBlank

/-- The text without the white space at both ends. -/
def Text.trim (s : Text) : Text :=
  Text.dropRightWhile CodePoint.isBlank (s.dropWhile CodePoint.isBlank)

end CrateIndex
