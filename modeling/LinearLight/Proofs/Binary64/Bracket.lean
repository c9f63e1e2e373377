import Mathlib.Analysis.SpecialFunctions.Pow.Real
import LinearLight.Binary64.Power
import LinearLight.Proofs.Binary64.Rounding

/-!
# Brackets enclose powers

Each operation on brackets encloses the result for every real number that its operands enclose. So a
bracket computed for a power encloses that power, however few bits it has, and a magnitude to which
both of its ends round is the one to which the power rounds.

## Main definitions

- `Bracket.Encloses`: a real number lies between the ends of a bracket

## Main statements

- `Bracket.Encloses.mul`, `Bracket.Encloses.pow`, `Bracket.Encloses.sqrt`
- `Bracket.Encloses.power`: a power with whole part and fraction
- `Bracket.Encloses.eq_of_settled?`: what agreeing ends say
-/

namespace LinearLight

namespace Bracket

open Binary64 (RoundsTo)

/-- A real number lies between the ends of a bracket. -/
structure Encloses (a : Bracket) (r : ℝ) : Prop where
  lower_le : (a.lower : ℝ) * 2 ^ a.scale ≤ r
  le_upper : r ≤ (a.upper : ℝ) * 2 ^ a.scale

theorem encloses_exact (mantissa : Nat) (scale : Int) :
    (exact mantissa scale).Encloses (mantissa * 2 ^ scale) :=
  ⟨le_rfl, le_rfl⟩

namespace Encloses

variable {a b : Bracket} {r s : ℝ}

theorem nonneg (h : a.Encloses r) : 0 ≤ r :=
  le_trans (by positivity) h.lower_le

theorem mul (ha : a.Encloses r) (hb : b.Encloses s) : (a.mul b).Encloses (r * s) := by
  have hscale : (2 : ℝ) ^ (a.scale + b.scale) = 2 ^ a.scale * 2 ^ b.scale :=
    zpow_add₀ two_ne_zero _ _
  constructor
  · calc ((a.lower * b.lower : Nat) : ℝ) * 2 ^ (a.scale + b.scale)
        = a.lower * 2 ^ a.scale * (b.lower * 2 ^ b.scale) := by
          rw [hscale]
          push_cast
          ring
      _ ≤ r * s := mul_le_mul ha.lower_le hb.lower_le (by positivity) ha.nonneg
  · calc r * s ≤ a.upper * 2 ^ a.scale * (b.upper * 2 ^ b.scale) :=
          mul_le_mul ha.le_upper hb.le_upper hb.nonneg (by positivity)
      _ = ((a.upper * b.upper : Nat) : ℝ) * 2 ^ (a.scale + b.scale) := by
          rw [hscale]
          push_cast
          ring

theorem pow (h : a.Encloses r) (n : Nat) : (a.pow n).Encloses (r ^ n) := by
  have hscale : (2 : ℝ) ^ (a.scale * n) = (2 ^ a.scale) ^ n := by
    rw [zpow_mul, zpow_natCast]
  constructor
  · calc ((a.lower ^ n : Nat) : ℝ) * 2 ^ (a.scale * n) = (a.lower * 2 ^ a.scale) ^ n := by
          rw [hscale, mul_pow]
          push_cast
          rfl
      _ ≤ r ^ n := pow_le_pow_left₀ (by positivity) h.lower_le n
  · calc r ^ n ≤ (a.upper * 2 ^ a.scale) ^ n := pow_le_pow_left₀ h.nonneg h.le_upper n
      _ = ((a.upper ^ n : Nat) : ℝ) * 2 ^ (a.scale * n) := by
          rw [hscale, mul_pow]
          push_cast
          rfl

/-- The shift makes the scale even, so the root of its power of two is one as well. -/
theorem exists_half (scale : Int) (wanted : Nat) :
    ∃ (shift : Nat) (half : Int),
      (if (scale - wanted) % 2 = 0 then wanted else wanted + 1) = shift ∧
        (scale - shift) / 2 = half ∧ scale = shift + 2 * half := by
  split
  · exact ⟨wanted, _, rfl, rfl, by omega⟩
  · exact ⟨wanted + 1, _, rfl, rfl, by push_cast; omega⟩

theorem shiftLeft_mul_sq (mantissa shift : Nat) (half : Int) :
    ((mantissa <<< shift : Nat) : ℝ) * (2 ^ half) ^ 2 = mantissa * 2 ^ (shift + 2 * half) := by
  rw [Nat.shiftLeft_eq, zpow_add₀ two_ne_zero, zpow_natCast, mul_comm 2 half, zpow_mul]
  push_cast
  rw [mul_assoc]
  rfl

theorem sqrt (h : a.Encloses r) (bits : Nat) : (a.sqrt bits).Encloses (Real.sqrt r) := by
  obtain ⟨shift, half, hshift, hhalf, hscale⟩ := exists_half a.scale (2 * bits - a.lower.log2)
  simp only [Bracket.sqrt, hshift, hhalf]
  constructor
  · refine Real.le_sqrt_of_sq_le ?_
    have hroot : (floorSqrt (a.lower <<< shift) : ℝ) ^ 2 ≤ (a.lower <<< shift : Nat) := by
      rw [sq]
      exact_mod_cast floorSqrt_sq_le (a.lower <<< shift)
    calc (floorSqrt (a.lower <<< shift) * 2 ^ half : ℝ) ^ 2
        = (floorSqrt (a.lower <<< shift) : ℝ) ^ 2 * (2 ^ half) ^ 2 := mul_pow _ _ _
      _ ≤ (a.lower <<< shift : Nat) * (2 ^ half) ^ 2 :=
          mul_le_mul_of_nonneg_right hroot (by positivity)
      _ = a.lower * 2 ^ a.scale := by rw [shiftLeft_mul_sq, ← hscale]
      _ ≤ r := h.lower_le
  · refine Real.sqrt_le_iff.mpr ⟨by positivity, ?_⟩
    have hroot : ((a.upper <<< shift : Nat) : ℝ) ≤
        ((floorSqrt (a.upper <<< shift) + 1 : Nat) : ℝ) ^ 2 := by
      rw [sq]
      exact_mod_cast (lt_succ_floorSqrt_sq (a.upper <<< shift)).le
    calc r ≤ a.upper * 2 ^ a.scale := h.le_upper
      _ = (a.upper <<< shift : Nat) * (2 ^ half) ^ 2 := by rw [shiftLeft_mul_sq, ← hscale]
      _ ≤ ((floorSqrt (a.upper <<< shift) + 1 : Nat) : ℝ) ^ 2 * (2 ^ half) ^ 2 :=
          mul_le_mul_of_nonneg_right hroot (by positivity)
      _ = (((floorSqrt (a.upper <<< shift) + 1 : Nat) : ℝ) * 2 ^ half) ^ 2 := (mul_pow _ _ _).symm

/-- The binary digits of the exponent below the point, from the last one on. -/
theorem fractionalPower (h : a.Encloses r) (hr : 0 < r) (bits numerator halvings : Nat) :
    (a.fractionalPower bits numerator halvings).Encloses
      (r ^ ((numerator % 2 ^ halvings : Nat) / 2 ^ halvings : ℝ)) := by
  induction halvings with
  | zero =>
    rw [pow_zero, Nat.mod_one, Nat.cast_zero, zero_div, Real.rpow_zero]
    simpa [Bracket.fractionalPower] using encloses_exact 1 0
  | succ halvings ih =>
    have hdigit : ((numerator % 2 ^ (halvings + 1) : Nat) : ℝ) / 2 ^ (halvings + 1) =
        ((numerator % 2 ^ halvings : Nat) / 2 ^ halvings + (numerator.testBit halvings).toNat) *
          (1 / 2) := by
      rw [Nat.mod_pow_succ, ← Nat.toNat_testBit]
      push_cast
      field_simp
      ring
    rw [hdigit, Real.rpow_mul hr.le, ← Real.sqrt_eq_rpow]
    refine sqrt ?_ bits
    cases numerator.testBit halvings with
    | false => simpa using ih
    | true =>
      simp only [if_true, Bool.toNat_true, Nat.cast_one, Real.rpow_add_one hr.ne']
      exact ih.mul h

/-- The whole part of the exponent is a power by repeated products. -/
theorem power (h : a.Encloses r) (hr : 0 < r) (bits : Nat) (y : Exponent) :
    (a.power bits y).Encloses (r ^ (y.numerator / 2 ^ y.halvings : ℝ)) := by
  have hsplit : (y.numerator / 2 ^ y.halvings : ℝ) = (y.numerator >>> y.halvings : Nat) +
      (y.numerator % 2 ^ y.halvings : Nat) / 2 ^ y.halvings := by
    have hdivision : (2 ^ y.halvings * (y.numerator >>> y.halvings : Nat) +
        (y.numerator % 2 ^ y.halvings : Nat) : ℝ) = y.numerator := by
      rw [Nat.shiftRight_eq_div_pow]
      exact_mod_cast Nat.div_add_mod y.numerator (2 ^ y.halvings)
    rw [← hdivision]
    field_simp
  rw [hsplit, Real.rpow_add hr, Real.rpow_natCast]
  exact (h.pow _).mul (h.fractionalPower hr bits y.numerator y.halvings)

end Encloses

/-! ### Rounding the ends -/

theorem mul_zpow_eq_div (mantissa : Nat) (scale : Int) : (mantissa : ℝ) * (2 : ℝ) ^ scale =
    (mantissa <<< scale.toNat : Nat) / (1 <<< (-scale).toNat : Nat) := by
  rw [Nat.shiftLeft_eq, Nat.one_shiftLeft]
  push_cast
  rcases Int.eq_nat_or_neg scale with ⟨n, rfl | rfl⟩
  · rw [Int.toNat_natCast, Int.toNat_neg_natCast, pow_zero, div_one, zpow_natCast]
  · rw [Int.toNat_neg_natCast, neg_neg, Int.toNat_natCast, pow_zero, mul_one, zpow_neg,
      zpow_natCast, div_eq_mul_inv]

theorem roundsTo_nearestDyadic (mantissa : Nat) (scale : Int) :
    ∃ m, RoundsTo ((mantissa : ℝ) * 2 ^ scale * Binary64.unitsInOne) m ∧
      nearestDyadic mantissa scale = min m Binary64.infinite := by
  refine ⟨_, ?_, rfl⟩
  rw [mul_zpow_eq_div, div_mul_eq_mul_div]
  exact Binary64.roundsTo_nearest (Binary64.one_shiftLeft_pos _)

variable {a : Bracket} {r : ℝ} {m n : Nat}

/-- An enclosed number rounds to a magnitude between those of the ends. -/
theorem Encloses.nearestDyadic_le (h : a.Encloses r) (hn : RoundsTo (r * Binary64.unitsInOne) n) :
    nearestDyadic a.lower a.scale ≤ min n Binary64.infinite ∧
      min n Binary64.infinite ≤ nearestDyadic a.upper a.scale := by
  have hunits : (0 : ℝ) ≤ Binary64.unitsInOne := Nat.cast_nonneg _
  obtain ⟨low, hlow, hlowEq⟩ := roundsTo_nearestDyadic a.lower a.scale
  obtain ⟨high, hhigh, hhighEq⟩ := roundsTo_nearestDyadic a.upper a.scale
  have hle : low ≤ n := hlow.mono hn (mul_le_mul_of_nonneg_right h.lower_le hunits)
  have hge : n ≤ high := hn.mono hhigh (mul_le_mul_of_nonneg_right h.le_upper hunits)
  rw [hlowEq, hhighEq]
  exact ⟨min_le_min_right _ hle, min_le_min_right _ hge⟩

/-- Ends that agree agree with every number between them. -/
theorem Encloses.eq_of_settled? (h : a.Encloses r) (hn : RoundsTo (r * Binary64.unitsInOne) n)
    (hm : a.settled? = some m) : m = min n Binary64.infinite := by
  obtain ⟨hlow, hhigh⟩ := h.nearestDyadic_le hn
  simp only [settled?, Option.ite_none_right_eq_some, Option.some.injEq] at hm
  obtain ⟨hagree, rfl⟩ := hm
  omega

end Bracket

end LinearLight
