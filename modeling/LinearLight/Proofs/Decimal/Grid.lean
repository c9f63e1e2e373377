import Mathlib.Algebra.Order.Field.Power
import Mathlib.Data.Rat.Cast.Order
import LinearLight.Decimal.Shortest
import LinearLight.Proofs.Binary64.Rounding

/-!
# Decimal grids

The numbers that round to a magnitude lie together, and the magnitude's own value is one of them. So
of a grid's multiples, one rounds to the magnitude only if one of the two around the value does. The
finest grid always has one, and grids coarser than all doubles have none; so the search ends at the
coarsest grid that has one.

## Main definitions

- `Decimal.Reads`: a number rounds to a magnitude, once it is counted in units
- `Decimal.Number.value`: the number that a decimal is
- `Decimal.IsCoarsest`: a decimal reads as a magnitude, and none on a coarser grid does

## Main statements

- `Decimal.multiple?_eq_some`, `Decimal.multiple?_eq_none`: what a grid has to offer
- `Decimal.isCoarsest_shortest`: where the search ends
-/

namespace LinearLight.Decimal

open Binary64 (RoundsTo unitsInOne unitsOf)

variable {m point grid c : Nat} {r r' x : ℚ}

/-- A number is read as a magnitude: counted in units, it rounds to it. -/
def Reads (r : ℚ) (m : Nat) : Prop := RoundsTo (r * unitsInOne) m

/-- The number that a decimal is. -/
def Number.value (n : Number) : ℚ := n.coefficient * 10 ^ n.exponent

/-- A decimal reads as a magnitude, and no multiple on a coarser grid does. -/
structure IsCoarsest (m : Nat) (n : Number) : Prop where
  reads : Reads n.value m
  coarsest {e : ℤ} : n.exponent < e → ∀ c : Nat, ¬ Reads (c * 10 ^ e) m

theorem unitsInOne_pos_rat : (0 : ℚ) < unitsInOne := Nat.cast_pos.mpr Binary64.unitsInOne_pos

theorem Reads.of_mem (h : Reads r m) (h' : Reads r' m) (hlow : r ≤ x) (hhigh : x ≤ r') :
    Reads x m :=
  RoundsTo.of_mem h h' (mul_le_mul_of_nonneg_right hlow unitsInOne_pos_rat.le)
    (mul_le_mul_of_nonneg_right hhigh unitsInOne_pos_rat.le)

/-- Zero is read as no other magnitude. -/
theorem not_reads_zero (hm : m ≠ 0) : ¬ Reads 0 m := by
  intro h
  rw [Reads, zero_mul] at h
  have hzero : m ≤ 0 := h.le_of_le_unitsOf (by simp [Binary64.unitsOf_zero])
  omega

/-! ### Points on the scale of the search -/

/-- The scale on which the search compares: the finest grid, with the midpoints doubled. -/
def pointsInUnit : Nat := 2 * Nat.pow 10 324

theorem pointsInUnit_pos : 0 < pointsInUnit := by decide +kernel

theorem past_point_iff {k : Nat} : Binary64.Past ((point : ℚ) / pointsInUnit) k ↔
    scaledMidpoint k < point ∨ scaledMidpoint k = point ∧ k % 2 = 1 := by
  have hdouble : Binary64.midpoint k * pointsInUnit = 2 * scaledMidpoint k := by
    unfold pointsInUnit scaledMidpoint Binary64.midpoint
    generalize Nat.pow 10 324 = unit
    exact Nat.mul_left_comm _ _ _
  rw [Binary64.past_div_iff pointsInUnit_pos, hdouble]
  omega

/-- The comparison with two midpoints tells what rounds to a magnitude. -/
theorem roundsTo_iff (hm : m ≠ 0) :
    roundsTo m point = true ↔ RoundsTo ((point : ℚ) / pointsInUnit) m := by
  have hround : RoundsTo ((point : ℚ) / pointsInUnit) m ↔
      Binary64.Past ((point : ℚ) / pointsInUnit) (m - 1) ∧
        ¬ Binary64.Past ((point : ℚ) / pointsInUnit) m := by
    refine ⟨fun h => ⟨h.past_of_lt _ (by omega), h.not_past⟩,
      fun ⟨hpast, hnot⟩ => ⟨fun k hk => ?_, hnot⟩⟩
    rcases Nat.lt_or_eq_of_le (Nat.le_sub_one_of_lt hk) with hlt | rfl
    · exact hpast.of_lt hlt
    · exact hpast
  rw [hround, past_point_iff, past_point_iff, roundsTo]
  split <;> simp only [Bool.and_eq_true, decide_eq_true_eq] <;> omega

theorem roundsTo_of_mem (hm : m ≠ 0) {low high : Nat} (hlow : roundsTo m low = true)
    (hhigh : roundsTo m high = true) (h : low ≤ point) (h' : point ≤ high) :
    roundsTo m point = true := by
  rw [roundsTo_iff hm] at hlow hhigh ⊢
  exact hlow.of_mem hhigh (by gcongr) (by gcongr)

theorem gridStep_eq (grid : Nat) : gridStep grid = 10 ^ grid * (2 * unitsInOne) := by
  have hdouble : 1 <<< 1075 = 2 * unitsInOne := Nat.shiftLeft_succ 1 1074
  calc gridStep grid = 10 ^ grid * 1 <<< 1075 := Binary64.shiftLeft_eq_mul_one_shiftLeft _ _
    _ = 10 ^ grid * (2 * unitsInOne) := by rw [hdouble]

/-- A multiple on a grid, on the scale of the search, is the decimal that it stands for. -/
theorem point_eq (c grid : Nat) : ((c * gridStep grid : Nat) : ℚ) / pointsInUnit =
    c * 10 ^ (finestGrid + grid) * unitsInOne := by
  have hfinest : finestGrid = -((324 : Nat) : ℤ) := rfl
  unfold pointsInUnit
  rw [gridStep_eq, hfinest]
  generalize 324 = places
  rw [Nat.pow_eq, zpow_add₀ (by norm_num), zpow_neg, zpow_natCast, zpow_natCast]
  push_cast
  field_simp

theorem roundsTo_multiple_iff (hm : m ≠ 0) :
    roundsTo m (c * gridStep grid) = true ↔ Reads (c * 10 ^ (finestGrid + grid)) m := by
  rw [roundsTo_iff hm, point_eq, Reads]

/-! ### What a grid has to offer -/

/-- The midpoints around a magnitude leave room for its value and one unit in front of it. -/
theorem midpoint_bounds (hm : m ≠ 0) :
    scaledMidpoint (m - 1) + Nat.pow 10 324 ≤ scaledValue m ∧ scaledValue m < scaledMidpoint m := by
  have hbelow : Binary64.midpoint (m - 1) + 1 ≤ 2 * unitsOf m :=
    Binary64.midpoint_lt_two_mul_unitsOf (Nat.sub_one_lt hm)
  have habove : 2 * unitsOf m < Binary64.midpoint m := Binary64.two_mul_unitsOf_lt_midpoint m
  have hunit : 0 < Nat.pow 10 324 := by decide +kernel
  unfold scaledMidpoint scaledValue
  generalize Nat.pow 10 324 = unit at hunit ⊢
  constructor
  · calc (unitsOf (m - 1) + unitsOf (m - 1 + 1)) * unit + unit
        = (Binary64.midpoint (m - 1) + 1) * unit := by rw [Binary64.midpoint, Nat.succ_mul]
      _ ≤ 2 * unitsOf m * unit := Nat.mul_le_mul_right _ hbelow
  · exact Nat.mul_lt_mul_of_pos_right habove hunit

theorem roundsTo_of_lt (hlow : scaledMidpoint (m - 1) < point) (hhigh : point < scaledMidpoint m) :
    roundsTo m point = true := by
  rw [roundsTo]
  split <;> simp only [Bool.and_eq_true, decide_eq_true_eq] <;> omega

theorem roundsTo_scaledValue (hm : m ≠ 0) : roundsTo m (scaledValue m) = true := by
  obtain ⟨hlow, hhigh⟩ := midpoint_bounds hm
  have hunit : 0 < Nat.pow 10 324 := by decide +kernel
  exact roundsTo_of_lt (Nat.lt_of_lt_of_le (Nat.lt_add_of_pos_right hunit) hlow) hhigh

theorem gridStep_pos (grid : Nat) : 0 < gridStep grid := by
  rw [gridStep_eq]
  exact Nat.mul_pos (Nat.pow_pos (by decide)) (Nat.mul_pos (by decide) Binary64.unitsInOne_pos)

/-- The value of a magnitude lies between two neighbours on a grid. -/
theorem neighbours (m grid : Nat) :
    scaledValue m / gridStep grid * gridStep grid ≤ scaledValue m ∧
      scaledValue m < (scaledValue m / gridStep grid + 1) * gridStep grid :=
  ⟨Nat.div_mul_le_self _ _, Nat.lt_mul_of_div_lt (Nat.lt_succ_self _) (gridStep_pos grid)⟩

theorem multiple?_eq_some (h : multiple? m grid = some c) :
    roundsTo m (c * gridStep grid) = true := by
  simp only [multiple?] at h
  split at h
  · next hbelow habove =>
    rw [← Option.some.inj h]
    split
    · exact hbelow
    · exact habove
  · next hbelow _ =>
    rw [← Option.some.inj h]
    exact hbelow
  · next _ habove =>
    rw [← Option.some.inj h]
    exact habove
  · exact nomatch h

/-- Where neither neighbour of the value rounds to the magnitude, no multiple does. -/
theorem multiple?_eq_none (hm : m ≠ 0) (h : multiple? m grid = none) (c : Nat) :
    ¬ roundsTo m (c * gridStep grid) = true := by
  intro hc
  obtain ⟨hbelow, habove⟩ := neighbours m grid
  have hvalue := roundsTo_scaledValue hm
  simp only [multiple?] at h
  split at h
  · exact nomatch h
  · exact nomatch h
  · exact nomatch h
  · next hnotBelow hnotAbove =>
    rcases Nat.lt_or_ge (scaledValue m / gridStep grid) c with hlt | hle
    · have := roundsTo_of_mem hm hvalue hc habove.le (Nat.mul_le_mul_right _ hlt)
      exact absurd this (by rw [hnotAbove]; decide)
    · have := roundsTo_of_mem hm hc hvalue (Nat.mul_le_mul_right _ hle) hbelow
      exact absurd this (by rw [hnotBelow]; decide)

/-- The finest grid is finer than the gaps between midpoints. -/
theorem multiple?_finest (hm : m ≠ 0) : (multiple? m 0).isSome := by
  obtain ⟨hlow, hhigh⟩ := midpoint_bounds hm
  obtain ⟨hbelow, habove⟩ := neighbours m 0
  have hstep : gridStep 0 < Nat.pow 10 324 := by decide +kernel
  have hrounds : roundsTo m (scaledValue m / gridStep 0 * gridStep 0) = true := by
    rw [Nat.succ_mul] at habove
    generalize Nat.pow 10 324 = unit at hlow hstep
    exact roundsTo_of_lt (by omega) (by omega)
  rw [Option.isSome_iff_ne_none]
  exact fun hnone => multiple?_eq_none hm hnone _ hrounds

/-- Grids beyond the last one are coarser than all doubles. -/
theorem not_roundsTo_of_gridCount_lt (hm : m ≠ 0) (hfinite : m < Binary64.infinite)
    (hgrid : gridCount < grid) (c : Nat) : ¬ roundsTo m (c * gridStep grid) = true := by
  intro h
  have hread := (roundsTo_multiple_iff hm).mp h
  have hc : 1 ≤ c := by
    rw [Nat.one_le_iff_ne_zero]
    rintro rfl
    exact not_reads_zero hm (by simpa using hread)
  have htop : 2 * unitsOf Binary64.infinite * Nat.pow 10 324 < gridStep (gridCount + 1) := by
    decide +kernel
  have hstep : gridStep (gridCount + 1) ≤ c * gridStep grid := by
    rw [gridStep_eq, gridStep_eq]
    calc 10 ^ (gridCount + 1) * (2 * unitsInOne)
        ≤ 10 ^ grid * (2 * unitsInOne) :=
          Nat.mul_le_mul_right _ (Nat.pow_le_pow_right (by decide) hgrid)
      _ ≤ c * (10 ^ grid * (2 * unitsInOne)) := Nat.le_mul_of_pos_left _ hc
  have hmid : scaledMidpoint m ≤ 2 * unitsOf Binary64.infinite * Nat.pow 10 324 :=
    Nat.mul_le_mul_right _ (Binary64.midpoint_lt_two_mul_unitsOf hfinite).le
  have hpast : Binary64.Past ((c * gridStep grid : Nat) / pointsInUnit : ℚ) m :=
    past_point_iff.mpr (.inl (by omega))
  exact ((roundsTo_iff hm).mp h).not_past hpast

/-! ### Where the search ends -/

/-- The search ends on the coarsest grid, of those it looks at, with a multiple to offer. -/
theorem shortestUpTo_spec (hm : m ≠ 0) (top : Nat) :
    ∃ grid ≤ top, (shortestUpTo m top).exponent = finestGrid + grid ∧
      roundsTo m ((shortestUpTo m top).coefficient * gridStep grid) = true ∧
      ∀ coarser, grid < coarser → coarser ≤ top →
        ∀ c, ¬ roundsTo m (c * gridStep coarser) = true := by
  induction top with
  | zero =>
    obtain ⟨c, hc⟩ := Option.isSome_iff_exists.mp (multiple?_finest hm)
    refine ⟨0, Nat.le_refl 0, rfl, ?_, fun coarser hlt hle => absurd hle (by omega)⟩
    rw [shortestUpTo, hc]
    exact multiple?_eq_some hc
  | succ top ih =>
    rw [shortestUpTo]
    split
    · next c hc =>
      exact ⟨top + 1, Nat.le_refl _, rfl, multiple?_eq_some hc,
        fun coarser hlt hle => absurd hle (by omega)⟩
    · next hnone =>
      obtain ⟨grid, hle, hexponent, hrounds, hcoarser⟩ := ih
      refine ⟨grid, by omega, hexponent, hrounds, fun coarser hlt hle => ?_⟩
      rcases Nat.lt_or_eq_of_le hle with htop | rfl
      · exact hcoarser coarser hlt (by omega)
      · exact multiple?_eq_none hm hnone

/-- The decimal found for a magnitude is on the coarsest grid of all. -/
theorem isCoarsest_shortest (hm : m ≠ 0) (hfinite : m < Binary64.infinite) :
    IsCoarsest m (shortest m) := by
  rw [shortest, if_neg hm]
  obtain ⟨grid, -, hexponent, hrounds, hcoarser⟩ := shortestUpTo_spec hm gridCount
  constructor
  · rw [Number.value, hexponent]
    exact (roundsTo_multiple_iff hm).mp hrounds
  · intro e he c hread
    obtain ⟨coarser, rfl⟩ : ∃ coarser : Nat, e = finestGrid + coarser :=
      ⟨(e - finestGrid).toNat, by omega⟩
    have hrounds := (roundsTo_multiple_iff hm).mpr hread
    rcases Nat.lt_or_ge gridCount coarser with hbeyond | hle
    · exact not_roundsTo_of_gridCount_lt hm hfinite hbeyond c hrounds
    · exact hcoarser coarser (by omega) hle c hrounds

end LinearLight.Decimal
