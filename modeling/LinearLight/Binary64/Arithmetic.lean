import LinearLight.Binary64.Rounding

/-!
# Arithmetic on doubles

Sum, product and quotient: the exact result rounded once. The cases without an exact result (NaN
operands, infinity less infinity, zero times infinity, zero by zero) give NaN.

## Main definitions

- `Binary64.add`, `Binary64.mul`, `Binary64.div`
- `Binary64.truncate`: the whole part, clamped to a range
-/

namespace LinearLight.Binary64

/-- The sum. An exact zero is positive unless both operands are negative zeros. -/
def add (a b : Binary64) : Binary64 :=
  if a.isNaN || b.isNaN then nan
  else if a.isInfinite then
    if b.isInfinite && a.negative != b.negative then nan else a
  else if b.isInfinite then b
  else
    let sum := a.signedUnits + b.signedUnits
    if sum = 0 then ofMagnitude (a.negative && b.negative) 0
    else ofRatio (decide (sum < 0)) sum.natAbs (1 <<< 1074)

/-- The product, with the sign of the signs. -/
def mul (a b : Binary64) : Binary64 :=
  let negative := a.negative != b.negative
  if a.isNaN || b.isNaN then nan
  else if a.isInfinite || b.isInfinite then
    if a.isZero || b.isZero then nan else ofMagnitude negative infinite
  else ofRatio negative (a.units * b.units) (1 <<< 2148)

/-- The quotient. A number other than zero divided by zero is infinite. -/
def div (a b : Binary64) : Binary64 :=
  let negative := a.negative != b.negative
  if a.isNaN || b.isNaN then nan
  else if a.isInfinite then
    if b.isInfinite then nan else ofMagnitude negative infinite
  else if b.isInfinite then ofMagnitude negative 0
  else if b.isZero then
    if a.isZero then nan else ofMagnitude negative infinite
  else ofRatio negative a.units b.units

instance : Add Binary64 := ⟨add⟩
instance : Mul Binary64 := ⟨mul⟩
instance : Div Binary64 := ⟨div⟩

/-- The whole part of a number, clamped to `0 … limit`: negative numbers and NaN give 0. -/
def truncate (limit : Nat) (x : Binary64) : Nat :=
  if x.isNaN || x.negative then 0 else min (x.units >>> 1074) limit

end LinearLight.Binary64
