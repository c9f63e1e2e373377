import Mathlib.Algebra.Order.Field.Basic
import Mathlib.Data.Int.Cast.Lemmas
import Mathlib.Data.Rat.Cast.Order
import Mathlib.Tactic.Linarith
import LinearLight.Curve
import LinearLight.Proofs.Binary64.Units

/-!
# The numbers that doubles are

A finite double is a rational number. The comparisons of doubles are the comparisons of these
numbers, for a sign and a magnitude are ordered as the number that they stand for.

## Main definitions

- `Binary64.IsFinite`: neither infinite nor NaN
- `Binary64.value`: the number that a finite double is, in any field

## Main statements

- `Binary64.value_le_value_iff`: numbers are ordered as ranks are
- `Binary64.le_iff`: a comparison of doubles
- `inRange_iff`
-/

namespace LinearLight

namespace Binary64

variable {a b x : Binary64}

/-- Neither infinite nor NaN. -/
def IsFinite (x : Binary64) : Prop := x.magnitude < infinite

instance (x : Binary64) : Decidable x.IsFinite := inferInstanceAs (Decidable (_ < _))

/-- The number that a finite double is. -/
def value (K : Type*) [DivisionRing K] (x : Binary64) : K := x.signedUnits / unitsInOne

namespace IsFinite

theorem isNaN_eq_false (h : x.IsFinite) : x.isNaN = false :=
  decide_eq_false (Nat.lt_asymm h)

theorem isInfinite_eq_false (h : x.IsFinite) : x.isInfinite = false :=
  decide_eq_false (Nat.ne_of_lt h)

theorem of_magnitude_le (h : b.IsFinite) (hle : a.magnitude ≤ b.magnitude) : a.IsFinite :=
  Nat.lt_of_le_of_lt hle h

end IsFinite

/-! ### Order -/

theorem unitsOf_eq_zero_iff {m : Nat} : unitsOf m = 0 ↔ m = 0 :=
  unitsOf_strictMono.injective.eq_iff' unitsOf_zero

/-- Signed units are ordered as ranks are. -/
theorem signedUnits_le_signedUnits_iff : a.signedUnits ≤ b.signedUnits ↔ a.rank ≤ b.rank := by
  have hle {m k : Nat} : unitsOf m ≤ unitsOf k ↔ m ≤ k := unitsOf_strictMono.le_iff_le
  have ha := unitsOf_eq_zero_iff (m := a.magnitude)
  have hb := unitsOf_eq_zero_iff (m := b.magnitude)
  unfold signedUnits rank units
  cases a.negative <;> cases b.negative <;>
    simp only [if_true, Bool.false_eq_true, if_false, neg_le_neg_iff, Nat.cast_le, hle]
  · omega
  · omega

section Field

variable (K : Type*) [Field K]

theorem value_zero : zero.value K = 0 := by
  have hunits : zero.signedUnits = 0 := rfl
  rw [value, hunits, Int.cast_zero, zero_div]

theorem value_of_not_negative (h : x.negative = false) : x.value K = x.units / unitsInOne := by
  have hsigned : x.signedUnits = x.units := by
    rw [signedUnits, h]
    rfl
  rw [value, hsigned, Int.cast_natCast]

theorem value_of_negative (h : x.negative = true) : x.value K = -(x.units / unitsInOne) := by
  have hsigned : x.signedUnits = -(x.units : Int) := by
    rw [signedUnits, h]
    rfl
  rw [value, hsigned, Int.cast_neg, Int.cast_natCast, neg_div]

variable [LinearOrder K] [IsStrictOrderedRing K]

theorem unitsInOne_cast_pos : (0 : K) < unitsInOne := Nat.cast_pos.mpr unitsInOne_pos

theorem abs_value (x : Binary64) : |x.value K| = x.units / unitsInOne := by
  have hpos : (0 : K) ≤ x.units / unitsInOne := div_nonneg (Nat.cast_nonneg _) (Nat.cast_nonneg _)
  cases h : x.negative with
  | false => rw [value_of_not_negative K h, abs_of_nonneg hpos]
  | true => rw [value_of_negative K h, abs_neg, abs_of_nonneg hpos]

theorem value_eq_zero_iff : x.value K = 0 ↔ x.magnitude = 0 := by
  rw [← abs_eq_zero, abs_value, div_eq_zero_iff, or_iff_left (unitsInOne_cast_pos K).ne',
    Nat.cast_eq_zero, units, unitsOf_eq_zero_iff]

theorem negative_of_value_neg (h : x.value K < 0) : x.negative = true := by
  by_contra hsign
  rw [value_of_not_negative K (Bool.eq_false_of_not_eq_true hsign)] at h
  exact absurd h (not_lt.mpr (div_nonneg (Nat.cast_nonneg _) (Nat.cast_nonneg _)))

theorem negative_of_value_pos (h : 0 < x.value K) : x.negative = false := by
  by_contra hsign
  rw [value_of_negative K (Bool.eq_true_of_not_eq_false hsign), neg_pos] at h
  exact absurd h (not_lt.mpr (div_nonneg (Nat.cast_nonneg _) (Nat.cast_nonneg _)))

/-- The numbers are ordered as ranks are. -/
theorem value_le_value_iff : a.value K ≤ b.value K ↔ a.rank ≤ b.rank := by
  rw [value, value, div_le_div_iff_of_pos_right (unitsInOne_cast_pos K), Int.cast_le,
    signedUnits_le_signedUnits_iff]

/-- A comparison of doubles compares the numbers. -/
theorem le_iff (ha : a.IsFinite) (hb : b.IsFinite) : a.le b = true ↔ a.value K ≤ b.value K := by
  rw [value_le_value_iff, le, ha.isNaN_eq_false, hb.isNaN_eq_false]
  simp

theorem value_one : one.value K = 1 := by
  have hunits : one.signedUnits = unitsInOne := by decide +kernel
  rw [value, hunits, Int.cast_natCast, div_self (unitsInOne_cast_pos K).ne']

end Field

theorem isFinite_zero : zero.IsFinite := by decide

theorem isFinite_one : one.IsFinite := by decide

end Binary64

open Binary64 in
/-- The numbers in range are those between 0 and 1. -/
theorem inRange_iff (K : Type*) [Field K] [LinearOrder K] [IsStrictOrderedRing K] {x : Binary64} :
    inRange x = true ↔ x.IsFinite ∧ 0 ≤ x.value K ∧ x.value K ≤ 1 := by
  constructor
  · intro h
    have hfinite : x.IsFinite := by
      obtain ⟨hlow, hhigh⟩ := Bool.and_eq_true_iff.mp h
      simp only [le, Bool.and_eq_true, decide_eq_true_eq] at hlow hhigh
      refine isFinite_one.of_magnitude_le ?_
      have hone : one.rank = one.magnitude := rfl
      have hzero : zero.rank = 0 := rfl
      have hrank : x.rank = x.magnitude ∨ x.rank = -x.magnitude := by
        unfold rank
        cases x.negative <;> simp
      omega
    rw [inRange, Bool.and_eq_true, le_iff K isFinite_zero hfinite, le_iff K hfinite isFinite_one,
      value_zero, value_one] at h
    exact ⟨hfinite, h⟩
  · rintro ⟨hfinite, h⟩
    rw [inRange, Bool.and_eq_true, le_iff K isFinite_zero hfinite, le_iff K hfinite isFinite_one,
      value_zero, value_one]
    exact h

end LinearLight
