import LinearLight.Binary64.Arithmetic
import LinearLight.SquareRoot

/-!
# Powers of doubles, correctly rounded

The power `x ^ y` of a positive double, for a positive exponent `y = numerator / 2 ^ halvings`. It
is enclosed between two dyadic numbers by repeated square roots: a bit of the exponent below the
binary point either multiplies by `x` or does not, and then halves the exponent gathered so far.
When both ends of the bracket round to one double, that is the answer. A bracket that does not
decide is followed by a tighter one, and if none does, the power is compared with the midpoints
between doubles exactly, as one whole power against another. So the answer is the nearest double
for all operands. No power of a double other than 1 comes near enough to a midpoint to need that
last comparison in practice, and its numbers are far too long to be written out.

## Main definitions

- `Exponent`: a positive dyadic number to raise to
- `Bracket`: two dyadic numbers around a real one
- `Bracket.power`: a bracket around a power, to a chosen number of bits
- `Binary64.pow`: the power of any double
-/

namespace LinearLight

/-- The exponent `numerator / 2 ^ halvings`. -/
structure Exponent where
  numerator : Nat
  halvings : Nat
deriving DecidableEq

/-- The fraction and the power of two of a positive double, as an exponent to raise to. -/
def Exponent.ofBinary64 (y : Binary64) : Exponent :=
  let field := y.magnitude / 0x10000000000000
  -- subnormal numbers count the units themselves
  if field = 0 then ⟨y.magnitude, 1074⟩
  else
    ⟨(0x10000000000000 + y.magnitude % 0x10000000000000) <<< (field - 1075), 1075 - field⟩

/-- Two dyadic numbers, `lower * 2 ^ scale` and `upper * 2 ^ scale`, with a real number between
them. -/
structure Bracket where
  lower : Nat
  upper : Nat
  scale : Int
deriving DecidableEq

namespace Bracket

/-- The bracket of a number that is itself dyadic. -/
def exact (mantissa : Nat) (scale : Int) : Bracket := ⟨mantissa, mantissa, scale⟩

/-- The exact value of a finite double, without its sign. -/
def ofBinary64 (x : Binary64) : Bracket :=
  let field : Nat := x.magnitude / 0x10000000000000
  if field = 0 then exact x.magnitude (-1074)
  else exact (0x10000000000000 + x.magnitude % 0x10000000000000) ((field : Int) - 1075)

def mul (a b : Bracket) : Bracket := ⟨a.lower * b.lower, a.upper * b.upper, a.scale + b.scale⟩

def pow (a : Bracket) (n : Nat) : Bracket := ⟨a.lower.pow n, a.upper.pow n, a.scale * n⟩

/-- The square root of the number in a bracket, its ends written with about `bits` bits. The ends
are first shifted left, so far that the scale becomes even. -/
def sqrt (bits : Nat) (a : Bracket) : Bracket :=
  let wanted := 2 * bits - a.lower.log2
  let shift := if (a.scale - wanted) % 2 = 0 then wanted else wanted + 1
  ⟨floorSqrt (a.lower <<< shift), floorSqrt (a.upper <<< shift) + 1, (a.scale - shift) / 2⟩

/-- The number in a bracket raised to `numerator % 2 ^ halvings / 2 ^ halvings`. -/
def fractionalPower (bits : Nat) (x : Bracket) (numerator : Nat) : (halvings : Nat) → Bracket
  | 0 => exact 1 0
  | halvings + 1 =>
    -- each binary digit of the exponent, from the last one on, is one root more
    let gathered := fractionalPower bits x numerator halvings
    (if numerator.testBit halvings then gathered.mul x else gathered).sqrt bits

/-- The number in a bracket raised to an exponent, whole part and fraction. -/
def power (bits : Nat) (x : Bracket) (y : Exponent) : Bracket :=
  (x.pow (y.numerator >>> y.halvings)).mul (fractionalPower bits x y.numerator y.halvings)

/-- The magnitude nearest to `mantissa * 2 ^ scale`. -/
def nearestDyadic (mantissa : Nat) (scale : Int) : Nat :=
  min (Binary64.nearest (mantissa <<< scale.toNat) (1 <<< (-scale).toNat)) Binary64.infinite

/-- The magnitude to which both ends round, if they agree. -/
def settled? (a : Bracket) : Option Nat :=
  let low := nearestDyadic a.lower a.scale
  if nearestDyadic a.upper a.scale = low then some low else none

end Bracket

namespace Binary64

/-- Whether `x ^ y` is past the midpoint between a magnitude and the next one, or on it while the
magnitude is odd: then it does not round to that magnitude, but to a later one. Both sides are
raised to `2 ^ halvings`. -/
def roundsPast (x : Binary64) (y : Exponent) (magnitude : Nat) : Bool :=
  let power := x.units.pow y.numerator <<< (1075 <<< y.halvings)
  let midpoint :=
    (unitsOf magnitude + unitsOf (magnitude + 1)).pow (1 <<< y.halvings) <<< (1074 * y.numerator)
  decide (midpoint < power) || (decide (midpoint = power) && decide (magnitude % 2 = 1))

/-- The first of `count + 1` magnitudes, from `magnitude` on, past which `x ^ y` does not round. -/
def firstNotPast (x : Binary64) (y : Exponent) : (count : Nat) → (magnitude : Nat) → Nat
  | 0, magnitude => magnitude
  | count + 1, magnitude =>
    if roundsPast x y magnitude then firstNotPast x y count (magnitude + 1) else magnitude

/-- The bits with which a bracket is tried, one count after the other. -/
def workingBits : List Nat := [96, 256, 1024]

/-- The magnitude nearest to `x ^ y`, for a positive finite `x`. -/
def powMagnitude (x : Binary64) (y : Exponent) : Nat :=
  let base := Bracket.ofBinary64 x
  match workingBits.findSome? fun bits => (base.power bits y).settled? with
  | some magnitude => magnitude
  | none =>
    -- the power lies so near a midpoint that only exact arithmetic can tell on which side
    let last := base.power 1024 y
    let low := Bracket.nearestDyadic last.lower last.scale
    let high := Bracket.nearestDyadic last.upper last.scale
    firstNotPast x y (high - low) low

/-- The power `x ^ y` for a positive exponent that is not a whole number: of the zeros it is zero,
of the infinities infinity, and of other negative numbers it does not exist. -/
def pow (x : Binary64) (y : Exponent) : Binary64 :=
  if x.isNaN then nan
  else if x.isZero then zero
  else if x.isInfinite then infinity
  else if x.negative then nan
  else ofMagnitude false (powMagnitude x y)

end Binary64

end LinearLight
