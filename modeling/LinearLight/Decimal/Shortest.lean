import LinearLight.Binary64.Rounding
import LinearLight.Decimal.Digits

/-!
# The shortest decimal of a double

The numbers that round to a double form an interval, its ends belonging to it when the magnitude
is even. Of the decimal grids (all multiples of one power of ten), the coarsest one with a multiple
inside gives the fewest digits. Its multiple nearest to the double is taken, and of two equally
near ones the larger. Written without an exponent, it reads back as the same double.

## Main definitions

- `Decimal.Number`: a coefficient and a power of ten
- `Decimal.shortest`: the decimal of a magnitude
- `Decimal.positional`: a decimal written without an exponent
- `Binary64.text`: the text of a double
- `Binary64.read?`: the double nearest to a written decimal
-/

namespace LinearLight.Decimal

/-- The decimal number `coefficient * 10 ^ exponent`. -/
structure Number where
  coefficient : Nat
  exponent : Int
deriving DecidableEq

/-- The power of ten of the finest grid. With it, any double can be told from its neighbours. -/
def finestGrid : Int := -324

/-- The count of grids above the finest one, up to the first that is coarser than all doubles. -/
def gridCount : Nat := 633

/-- Twice the value of a magnitude, in units of `2 ^ -1074` and scaled by the finest grid. -/
def scaledValue (magnitude : Nat) : Nat := 2 * Binary64.unitsOf magnitude * Nat.pow 10 324

/-- The midpoint between a magnitude and the next one, on the scale of `scaledValue`. -/
def scaledMidpoint (magnitude : Nat) : Nat :=
  (Binary64.unitsOf magnitude + Binary64.unitsOf (magnitude + 1)) * Nat.pow 10 324

/-- The distance between neighbours on a grid, on the scale of `scaledValue`. -/
def gridStep (grid : Nat) : Nat := Nat.pow 10 grid <<< 1075

/-- Whether a number on the scale of `scaledValue` rounds to a magnitude other than zero. -/
def roundsTo (magnitude point : Nat) : Bool :=
  let low := scaledMidpoint (magnitude - 1)
  let high := scaledMidpoint magnitude
  -- midpoints round to the even one of their neighbours
  if magnitude % 2 = 0 then decide (low ≤ point) && decide (point ≤ high)
  else decide (low < point) && decide (point < high)

/-- The multiple on a grid, of the two around a magnitude, that rounds to it and is nearest. -/
def multiple? (magnitude grid : Nat) : Option Nat :=
  let value := scaledValue magnitude
  let step := gridStep grid
  let below := value / step
  let above := below + 1
  match roundsTo magnitude (below * step), roundsTo magnitude (above * step) with
  | true, true => some (if value - below * step < above * step - value then below else above)
  | true, false => some below
  | false, true => some above
  | false, false => none

/-- The decimal on the coarsest grid with a multiple to offer, of the grids up to a given one. -/
def shortestUpTo (magnitude : Nat) : (grid : Nat) → Number
  | 0 => ⟨(multiple? magnitude 0).getD 0, finestGrid⟩
  | grid + 1 =>
    match multiple? magnitude (grid + 1) with
    | some coefficient => ⟨coefficient, finestGrid + (grid + 1)⟩
    | none => shortestUpTo magnitude grid

/-- The shortest decimal that rounds to a finite magnitude. -/
def shortest (magnitude : Nat) : Number :=
  if magnitude = 0 then ⟨0, 0⟩ else shortestUpTo magnitude gridCount

/-- A decimal written without an exponent: zeros fill up the places before the point, and the
places behind it are as many as the exponent asks for. -/
def positional (x : Number) : List Char :=
  match x.exponent with
  | .ofNat zeros => digitsOf x.coefficient ++ List.replicate zeros '0'
  | .negSucc n =>
    let places := n + 1
    let unit := Nat.pow 10 places
    let fraction := digitsOf (x.coefficient % unit)
    digitsOf (x.coefficient / unit) ++
      '.' :: (List.replicate (places - fraction.length) '0' ++ fraction)

end LinearLight.Decimal

namespace LinearLight.Binary64

/-- The text of a double: its sign and its shortest decimal. NaN has no sign. -/
def text (x : Binary64) : String :=
  if x.isNaN then "NaN"
  else
    let number :=
      if x.isInfinite then "inf".toList else Decimal.positional (Decimal.shortest x.magnitude)
    String.ofList (if x.negative then '-' :: number else number)

/-- The double nearest to an unsigned decimal without an exponent, or infinity under its name. -/
def readUnsigned? (negative : Bool) (text : List Char) : Option Binary64 :=
  if text = "inf".toList then some (ofMagnitude negative infinite)
  else
    match text.span (· ≠ '.') with
    | (whole, []) => do
      let n ← Decimal.valueOf? whole
      some (ofRatio negative n 1)
    | (whole, _ :: fraction) => do
      let n ← Decimal.valueOf? (whole ++ fraction)
      if whole.isEmpty || fraction.isEmpty then none
      else some (ofRatio negative n (Nat.pow 10 fraction.length))

/-- The double nearest to a decimal without an exponent. -/
def read? (text : String) : Option Binary64 :=
  match text.toList with
  | '-' :: rest => readUnsigned? true rest
  | rest => readUnsigned? false rest

end LinearLight.Binary64
