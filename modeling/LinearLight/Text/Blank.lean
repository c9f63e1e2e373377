import LinearLight.Text.Ranges

/-!
# Blanks

The characters that only keep others apart: the space, the controls that move to another place, and
the spaces of other widths.

## Main definitions

- `Text.isBlank`: whether a character is one of these
- `Text.trim`: a text without the blanks at both its ends
-/

namespace LinearLight.Text

def blanks : Ranges :=
  [(0x9, 0xD), (0x20, 0x20), (0x85, 0x85), (0xA0, 0xA0), (0x1680, 0x1680), (0x2000, 0x200A),
    (0x2028, 0x2029), (0x202F, 0x202F), (0x205F, 0x205F), (0x3000, 0x3000)]

def isBlank (c : Char) : Bool := blanks.cover c.toNat

/-- A text without the blanks at both its ends. -/
def trim (text : List Char) : List Char :=
  ((text.dropWhile isBlank).reverse.dropWhile isBlank).reverse

end LinearLight.Text
