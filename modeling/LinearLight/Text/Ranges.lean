/-!
# Ranges of code points

Properties of characters are kept as tables of ranges.

## Main definitions

- `Text.Ranges`: a table
- `Text.Ranges.cover`: whether a code point is in a table
-/

namespace LinearLight.Text

/-- The first and the last code point of each range. -/
abbrev Ranges := List (Nat × Nat)

def Ranges.cover (ranges : Ranges) (code : Nat) : Bool :=
  ranges.any fun range => decide (range.1 ≤ code) && decide (code ≤ range.2)

end LinearLight.Text
