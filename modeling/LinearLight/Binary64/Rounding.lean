import LinearLight.Binary64.Basic

/-!
# Rounding to the nearest double

Every operation on doubles is one exact rational number rounded once. The exact number is given as
a quotient of naturals; of the magnitudes, the nearest one wins, and of two equally near ones the
even one. Because infinity counts as the first number beyond the range, numbers too large go to
infinity by the same rule.

## Main definitions

- `Binary64.nearest`: the magnitude nearest to a quotient
- `Binary64.ofRatio`: the double nearest to a quotient with a sign
-/

namespace LinearLight.Binary64

/-- The magnitude nearest to `num / den`, ties to the even magnitude. Among the numbers that share
the exponent of `num / den`, one step of the magnitude is worth `2 ^ shift` units. -/
def nearest (num den : Nat) : Nat :=
  -- in units of the smallest positive double
  let scaled := num <<< 1074
  let shift := (scaled / den).log2 - 52
  let step := den <<< shift
  let below := shift * 0x10000000000000 + scaled / step
  let rest := scaled % step
  -- after the last magnitude of an exponent comes the first of the next, so carries are no case
  if 2 * rest < step ∨ 2 * rest = step ∧ below % 2 = 0 then below else below + 1

/-- The double nearest to `num / den`, with the given sign. -/
def ofRatio (negative : Bool) (num den : Nat) : Binary64 :=
  ofMagnitude negative (nearest num den)

def ofNat (n : Nat) : Binary64 := ofRatio false n 1

end LinearLight.Binary64
