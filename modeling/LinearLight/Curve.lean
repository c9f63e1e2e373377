import LinearLight.Binary64.Power
import LinearLight.Decimal.Shortest

/-!
# The gamma curve

A display value `x` between 0 and 1 stands for the light intensity `x ^ 2.2`. There is no linear
piece near black. Decoding takes display values to intensities and refuses numbers outside the
range; encoding raises to `1 / 2.2`, refuses nothing, and follows the power for any number.

## Main definitions

- `gamma`: the exponent
- `decode`, `encode`: the two directions
- `OutOfRange`: the refusal, with the number refused
-/

namespace LinearLight

/-- The exponent of the curve: the double nearest to 2.2. -/
def gamma : Binary64 := .ofRatio false 22 10

/-- The exponent of the way back: one divided by `gamma`, rounded. -/
def inverseGamma : Binary64 := .one / gamma

/-- A number refused by the curve. -/
structure OutOfRange where
  value : Binary64
deriving DecidableEq

namespace OutOfRange

def message (e : OutOfRange) : String :=
  "value " ++ e.value.text ++ " is outside the valid input range [0, 1]"

/-- Refusals are equal when the refused numbers are equal as numbers, so a refusal of NaN differs
from itself. -/
def equal (a b : OutOfRange) : Bool := a.value.equal b.value

end OutOfRange

/-- The curve itself, without a check of its argument. -/
def intensity (x : Binary64) : Binary64 := x.pow (.ofBinary64 gamma)

/-- Whether a number lies between 0 and 1. NaN does not, and negative zero does. -/
def inRange (x : Binary64) : Bool := Binary64.zero.le x && x.le .one

/-- The light intensity of a display value. -/
def decode (x : Binary64) : Except OutOfRange Binary64 :=
  if inRange x then .ok (intensity x) else .error ⟨x⟩

/-- The display value of a light intensity. -/
def encode (x : Binary64) : Binary64 := x.pow (.ofBinary64 inverseGamma)

/-- Whether two decodings agree: both gave equal numbers, or both refused equal numbers. -/
def decodingsAgree : Except OutOfRange Binary64 → Except OutOfRange Binary64 → Bool
  | .ok a, .ok b => a.equal b
  | .error a, .error b => a.equal b
  | _, _ => false

end LinearLight
