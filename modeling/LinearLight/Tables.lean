import LinearLight.Curve

/-!
# The lookup tables

Two tables with an entry for each 8-bit display value: the light intensity in 16 bits, and its high
byte. The entries can be set freely, so a value of this type need not follow the curve, nor need
its two tables agree.

## Main definitions

- `quantize`: an intensity in 16 bits
- `Tables`: the two tables
- `Tables.ofLinear16`: both tables from the first, by taking high bytes
- `Tables.ofCurve`: the tables of the gamma curve
-/

namespace LinearLight

/-- An intensity on the scale of 16 bits, and one half more: the product with 65535 is rounded to a
double, and so is its sum with one half. -/
def scaledUp (x : Binary64) : Binary64 := x * .ofNat 65535 + .ofRatio false 1 2

/-- An intensity between 0 and 1 in 16 bits: the whole part of the number scaled up. Numbers outside
the range go to its ends. -/
def quantize (x : Binary64) : UInt16 := UInt16.ofNat ((scaledUp x).truncate 65535)

def highByte (v : UInt16) : UInt8 := (v >>> 8).toUInt8

/-- The two results for one display value. -/
structure Sample where
  linear16 : UInt16
  linear8 : UInt8
deriving DecidableEq

def Sample.ofDisplay (x : Binary64) : Except OutOfRange Sample := do
  let v := quantize (← decode x)
  return ⟨v, highByte v⟩

/-- An entry for each 8-bit display value, in 16 and in 8 bits. -/
structure Tables where
  linear16 : Vector UInt16 256
  linear8 : Vector UInt8 256
deriving DecidableEq

namespace Tables

def zero : Tables := ⟨.replicate 256 0, .replicate 256 0⟩

def lookup16 (t : Tables) (v : UInt8) : UInt16 := t.linear16.get v.toFin

def lookup8 (t : Tables) (v : UInt8) : UInt8 := t.linear8.get v.toFin

/-- Both tables from the 16-bit one. The high byte is taken without rounding. -/
def ofLinear16 (linear16 : Vector UInt16 256) : Tables := ⟨linear16, linear16.map highByte⟩

/-- The tables with the 8-bit one derived anew. -/
def rederive (t : Tables) : Tables := ofLinear16 t.linear16

def set16 (t : Tables) (v : UInt8) (entry : UInt16) : Tables :=
  { t with linear16 := t.linear16.set v.toNat entry v.toNat_lt }

def set8 (t : Tables) (v : UInt8) (entry : UInt8) : Tables :=
  { t with linear8 := t.linear8.set v.toNat entry v.toNat_lt }

/-- The display value of a code, between 0 and 1. -/
def gridPoint (code : Nat) : Binary64 := .ofNat code / .ofNat 255

/-- The tables of the gamma curve. Every grid point is in range, so nothing can be refused. -/
def ofCurve : Tables :=
  ofLinear16 (.ofFn fun code => quantize (intensity (gridPoint code.val)))

end Tables

end LinearLight
