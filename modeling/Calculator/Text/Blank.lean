import Calculator.Text.Ranges

/-!
# Blank characters

The characters that may stand between two tokens are those with the Unicode property
`White_Space`. Twenty-five code points have it, and most of them are not ASCII.
-/

namespace Calculator.Text

/-- The code points with the Unicode property `White_Space`. -/
def whiteSpace : Ranges :=
  [(0x9, 0xD), (0x20, 0x20), (0x85, 0x85), (0xA0, 0xA0), (0x1680, 0x1680), (0x2000, 0x200A),
    (0x2028, 0x2029), (0x202F, 0x202F), (0x205F, 0x205F), (0x3000, 0x3000)]

/-- A character may stand between two tokens. -/
def isBlank (c : Char) : Bool :=
  whiteSpace.contains c

end Calculator.Text
