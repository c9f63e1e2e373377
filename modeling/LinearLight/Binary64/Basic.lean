/-!
# Doubles

A double is kept as a sign and a *magnitude*: the lower 63 bits of its word, read as a number. Of
these, the upper 11 are the exponent field, which counts steps of `2 ^ 52 = 0x10000000000000`.
Magnitudes of finite doubles are ordered like the absolute values they stand for, and each such
value is a whole number of units of `2 ^ -1074`, the smallest positive double. So exact questions
about doubles become questions about natural numbers.

## Main definitions

- `Binary64`: a sign and a magnitude below `2 ^ 63`
- `Binary64.ofBits`, `Binary64.toBits`: the 64-bit word of a double
- `Binary64.units`: the absolute value of a finite double, in units of `2 ^ -1074`
- `Binary64.le`, `Binary64.equal`: the comparisons of floating-point numbers
-/

namespace LinearLight

/-- A double: its sign bit, and its other 63 bits as a number. -/
structure Binary64 where
  /-- The sign bit. Zero and NaN have one as well. -/
  negative : Bool
  /-- The exponent and fraction fields, read together as one number. -/
  magnitude : Nat
  magnitude_lt : magnitude < 0x8000000000000000
deriving DecidableEq

namespace Binary64

/-- The magnitude of infinity; larger ones are NaN. -/
def infinite : Nat := 0x7FF0000000000000

/-- The absolute value that a magnitude stands for, in units of `2 ^ -1074`. Below `2 ^ 52` the
numbers are subnormal and a magnitude counts units. Infinity is given the place that the first
number beyond the range would have, so that rounding needs no case for overflow. -/
def unitsOf (magnitude : Nat) : Nat :=
  if magnitude < 0x10000000000000 then magnitude
  else
    (0x10000000000000 + magnitude % 0x10000000000000) <<< (magnitude / 0x10000000000000 - 1)

/-- The number with a sign and a magnitude; a magnitude beyond infinity's becomes infinity. -/
def ofMagnitude (negative : Bool) (magnitude : Nat) : Binary64 where
  negative := negative
  magnitude := min magnitude infinite
  magnitude_lt := by unfold infinite; omega

def ofBits (word : UInt64) : Binary64 where
  negative := decide (0x8000000000000000 ≤ word.toNat)
  magnitude := word.toNat % 0x8000000000000000
  magnitude_lt := Nat.mod_lt _ (by decide)

def toBits (x : Binary64) : UInt64 :=
  UInt64.ofNat ((if x.negative then 0x8000000000000000 else 0) + x.magnitude)

def isNaN (x : Binary64) : Bool := decide (infinite < x.magnitude)

def isInfinite (x : Binary64) : Bool := decide (x.magnitude = infinite)

def isZero (x : Binary64) : Bool := decide (x.magnitude = 0)

/-- The absolute value of a finite double, in units of `2 ^ -1074`. -/
def units (x : Binary64) : Nat := unitsOf x.magnitude

/-- The value of a finite double, in units of `2 ^ -1074`. -/
def signedUnits (x : Binary64) : Int := if x.negative then -(x.units : Int) else x.units

/-- The sign applied to the magnitude. Both zeros have rank 0, and the ranks of numbers, the
infinities among them, are ordered as the numbers are. -/
def rank (x : Binary64) : Int := if x.negative then -(x.magnitude : Int) else x.magnitude

/-- `a ≤ b` as numbers; false as soon as one of them is NaN. -/
def le (a b : Binary64) : Bool := !a.isNaN && !b.isNaN && decide (a.rank ≤ b.rank)

/-- Equality as numbers: the zeros are equal, and NaN is not equal to itself. -/
def equal (a b : Binary64) : Bool := !a.isNaN && !b.isNaN && decide (a.rank = b.rank)

def zero : Binary64 := ⟨false, 0, by decide⟩

def one : Binary64 := ⟨false, 0x3FF0000000000000, by decide⟩

def infinity : Binary64 := ⟨false, infinite, by decide⟩

/-- The NaN that operations give when they have no number to give. -/
def nan : Binary64 := ⟨false, 0x7FF8000000000000, by decide⟩

theorem toBits_ofBits (word : UInt64) : (ofBits word).toBits = word := by
  have hw := word.toNat_lt
  apply UInt64.toNat.inj
  unfold ofBits toBits
  rw [UInt64.toNat_ofNat']
  by_cases h : 0x8000000000000000 ≤ word.toNat <;>
    simp only [h, decide_true, decide_false, if_true] <;>
    simp <;> omega

theorem ofBits_toBits (x : Binary64) : ofBits x.toBits = x := by
  obtain ⟨s, m, h⟩ := x
  cases s <;> simp [ofBits, toBits, UInt64.toNat_ofNat'] <;> omega

end Binary64

end LinearLight
