import LinearLight.Proofs.Binary64.Rounding
import LinearLight.Proofs.Binary64.Value

/-!
# Correctly rounded results

A double is the correctly rounded result for a number when its magnitude is the one to which the
number's absolute value rounds, infinity standing for all that is beyond the range, and its sign is
the number's. Of a zero, the sign is left open. Sums, products and quotients of finite doubles are
correctly rounded.

## Main definitions

- `Binary64.Rounds`: a double is the correctly rounded result for a number

## Main statements

- `Binary64.Rounds.rank_le`: rounding keeps order
- `Binary64.rounds_value`: doubles stay what they are
- `Binary64.Rounds.abs_value_sub_le`: the error of rounding
- `Binary64.rounds_mul`, `Binary64.rounds_add`, `Binary64.rounds_div`
-/

namespace LinearLight.Binary64

variable {K : Type*} [Field K] [LinearOrder K] [IsStrictOrderedRing K] {r r' : K}
  {x x' y a b : Binary64}

/-- A double is the correctly rounded result for a number. -/
structure Rounds (r : K) (x : Binary64) : Prop where
  exists_roundsTo : ∃ m, RoundsTo (|r| * unitsInOne) m ∧ x.magnitude = min m infinite
  negative_of_neg : r < 0 → x.negative = true
  negative_of_pos : 0 < r → x.negative = false

namespace Rounds

theorem magnitude_le (h : Rounds r x) (h' : Rounds r' x') (hr : |r| ≤ |r'|) :
    x.magnitude ≤ x'.magnitude := by
  obtain ⟨m, hm, hx⟩ := h.exists_roundsTo
  obtain ⟨m', hm', hx'⟩ := h'.exists_roundsTo
  have hle : m ≤ m' := hm.mono hm' (mul_le_mul_of_nonneg_right hr (unitsInOne_cast_pos K).le)
  omega

omit [IsStrictOrderedRing K] in
theorem isNaN_eq_false (h : Rounds r x) : x.isNaN = false := by
  obtain ⟨m, -, hx⟩ := h.exists_roundsTo
  refine decide_eq_false (not_lt.mpr ?_)
  rw [hx]
  exact Nat.min_le_right _ _

theorem magnitude_of_zero (h : Rounds (0 : K) x) : x.magnitude = 0 := by
  obtain ⟨m, hm, hx⟩ := h.exists_roundsTo
  have hzero : m ≤ 0 := hm.le_of_le_unitsOf (by simp [unitsOf_zero])
  omega

theorem rank_eq_of_nonneg (h : Rounds r x) (hr : 0 ≤ r) : x.rank = x.magnitude := by
  rcases hr.lt_or_eq with hpos | rfl
  · rw [rank, h.negative_of_pos hpos]
    rfl
  · rw [rank, h.magnitude_of_zero]
    simp

theorem rank_eq_of_nonpos (h : Rounds r x) (hr : r ≤ 0) : x.rank = -x.magnitude := by
  rcases hr.lt_or_eq with hneg | rfl
  · rw [rank, h.negative_of_neg hneg]
    rfl
  · rw [rank, h.magnitude_of_zero]
    simp

/-- Rounding keeps order. -/
theorem rank_le (h : Rounds r x) (h' : Rounds r' x') (hr : r ≤ r') : x.rank ≤ x'.rank := by
  rcases le_total 0 r with hpos | hneg
  · have hle := h.magnitude_le h' (by rwa [abs_of_nonneg hpos, abs_of_nonneg (hpos.trans hr)])
    rw [h.rank_eq_of_nonneg hpos, h'.rank_eq_of_nonneg (hpos.trans hr)]
    omega
  · rw [h.rank_eq_of_nonpos hneg]
    rcases le_total 0 r' with hpos' | hneg'
    · rw [h'.rank_eq_of_nonneg hpos']
      omega
    · have hle := h'.magnitude_le h
        (by rwa [abs_of_nonpos hneg', abs_of_nonpos hneg, neg_le_neg_iff])
      rw [h'.rank_eq_of_nonpos hneg']
      omega

end Rounds

/-- Doubles stay what they are. -/
theorem rounds_value (hx : x.IsFinite) : Rounds (x.value K) x where
  exists_roundsTo := by
    refine ⟨x.magnitude, ?_, (Nat.min_eq_left (Nat.le_of_lt hx)).symm⟩
    rw [abs_value, div_mul_cancel₀ _ (unitsInOne_cast_pos K).ne']
    exact roundsTo_unitsOf x.magnitude
  negative_of_neg := negative_of_value_neg K
  negative_of_pos := negative_of_value_pos K

namespace Rounds

/-- A number no larger than a finite double does not go to infinity. -/
theorem isFinite (h : Rounds r x) (hy : y.IsFinite) (hr : |r| ≤ |y.value K|) : x.IsFinite :=
  hy.of_magnitude_le (h.magnitude_le (rounds_value hy) hr)

theorem value_le (h : Rounds r x) (hy : y.IsFinite) (hr : r ≤ y.value K) :
    x.value K ≤ y.value K :=
  (value_le_value_iff K).mpr (h.rank_le (rounds_value hy) hr)

theorem le_value (h : Rounds r x) (hy : y.IsFinite) (hr : y.value K ≤ r) :
    y.value K ≤ x.value K :=
  (value_le_value_iff K).mpr ((rounds_value hy).rank_le h hr)

/-- Between two doubles, the result is between them as well. -/
theorem value_mem {low high : Binary64} (h : Rounds r x) (hlow : low.IsFinite)
    (hhigh : high.IsFinite) (hr : 0 ≤ r) (hle : low.value K ≤ r) (hge : r ≤ high.value K) :
    x.IsFinite ∧ low.value K ≤ x.value K ∧ x.value K ≤ high.value K := by
  have habs : |r| ≤ |high.value K| := by
    rw [abs_of_nonneg hr]
    exact hge.trans (le_abs_self _)
  exact ⟨h.isFinite hhigh habs, h.le_value hlow hle, h.value_le hhigh hge⟩

/-- The result for a number that a double is, is that number. -/
theorem value_eq (h : Rounds (y.value K) x) (hy : y.IsFinite) : x.value K = y.value K :=
  le_antisymm (h.value_le hy le_rfl) (h.le_value hy le_rfl)

/-- The error is that of the absolute values, for the signs agree. -/
theorem abs_value_sub (h : Rounds r x) :
    |x.value K - r| = |x.units / unitsInOne - (|r|)| := by
  rcases lt_trichotomy r 0 with hneg | rfl | hpos
  · rw [value_of_negative K (h.negative_of_neg hneg), abs_of_neg hneg, neg_sub_left, abs_neg,
      sub_neg_eq_add, add_comm]
  · rw [sub_zero, abs_value, abs_zero, sub_zero,
      abs_of_nonneg (div_nonneg (Nat.cast_nonneg _) (Nat.cast_nonneg _))]
  · rw [value_of_not_negative K (h.negative_of_pos hpos), abs_of_pos hpos]

/-- A number that takes no more than 53 bits down to `2 ^ -k` is moved by at most half of that. -/
theorem abs_value_sub_le {k : Nat} (h : Rounds r x) (hx : x.IsFinite) (hk : k ≤ 1074)
    (hr : |r| * 2 ^ k ≤ 0x20000000000000) : |x.value K - r| * 2 ^ k ≤ 1 / 2 := by
  obtain ⟨m, hm, hmagnitude⟩ := h.exists_roundsTo
  obtain rfl : x.magnitude = m := by
    rw [IsFinite] at hx
    omega
  obtain ⟨shift, hshift⟩ := exists_unitsInOne_eq hk
  have hunits : (unitsInOne : K) = 2 ^ k * 2 ^ shift := by
    rw [hshift]
    push_cast
    rfl
  have hpos : (0 : K) < 2 ^ shift := by positivity
  have hrange : |r| * unitsInOne ≤ 0x20000000000000 * 2 ^ shift := by
    rw [hunits, ← mul_assoc]
    exact mul_le_mul_of_nonneg_right hr hpos.le
  have herror : |(x.units : K) - |r| * unitsInOne| ≤ 2 ^ shift / 2 :=
    hm.abs_sub_le (mul_nonneg (abs_nonneg r) (unitsInOne_cast_pos K).le) hrange
  refine le_of_mul_le_mul_right ?_ hpos
  calc |x.value K - r| * 2 ^ k * 2 ^ shift
      = |x.units / unitsInOne - (|r|)| * |(unitsInOne : K)| := by
        rw [h.abs_value_sub, abs_of_pos (unitsInOne_cast_pos K), hunits, mul_assoc]
    _ = |(x.units : K) - |r| * unitsInOne| := by
        rw [← abs_mul, sub_mul, div_mul_cancel₀ _ (unitsInOne_cast_pos K).ne']
    _ ≤ 1 / 2 * 2 ^ shift := herror.trans_eq (by ring)

end Rounds

/-! ### Operations -/

theorem rounds_ofRatio {negative : Bool} {num den : Nat} (hden : 0 < den) (habs : |r| = num / den)
    (hneg : r < 0 → negative = true) (hpos : 0 < r → negative = false) :
    Rounds r (ofRatio negative num den) where
  exists_roundsTo := by
    refine ⟨nearest num den, ?_, rfl⟩
    rw [habs, div_mul_eq_mul_div]
    exact roundsTo_nearest hden
  negative_of_neg := hneg
  negative_of_pos := hpos

theorem unitsInOne_mul_self : 1 <<< 2148 = unitsInOne * unitsInOne := by decide +kernel

/-- Products are correctly rounded. -/
theorem rounds_mul (ha : a.IsFinite) (hb : b.IsFinite) :
    Rounds (a.value K * b.value K) (a * b) := by
  have hmul : a * b = ofRatio (a.negative != b.negative) (a.units * b.units) (1 <<< 2148) := by
    change mul a b = _
    simp [mul, ha.isNaN_eq_false, hb.isNaN_eq_false, ha.isInfinite_eq_false,
      hb.isInfinite_eq_false]
  rw [hmul]
  refine rounds_ofRatio (one_shiftLeft_pos _) ?_ (fun h => ?_) fun h => ?_
  · rw [abs_mul, abs_value, abs_value, unitsInOne_mul_self, div_mul_div_comm]
    push_cast
    rfl
  · rcases mul_neg_iff.mp h with ⟨hpos, hneg⟩ | ⟨hneg, hpos⟩ <;>
      rw [negative_of_value_pos K hpos, negative_of_value_neg K hneg] <;> rfl
  · rcases mul_pos_iff.mp h with ⟨ha, hb⟩ | ⟨ha, hb⟩
    · rw [negative_of_value_pos K ha, negative_of_value_pos K hb]
      rfl
    · rw [negative_of_value_neg K ha, negative_of_value_neg K hb]
      rfl

/-- Sums are correctly rounded. -/
theorem rounds_add (ha : a.IsFinite) (hb : b.IsFinite) :
    Rounds (a.value K + b.value K) (a + b) := by
  have hpos := unitsInOne_cast_pos K
  have hsum : a.value K + b.value K = ((a.signedUnits + b.signedUnits : Int) : K) / unitsInOne := by
    rw [value, value, ← add_div, Int.cast_add]
  have hadd : a + b = if a.signedUnits + b.signedUnits = 0 then
      ofMagnitude (a.negative && b.negative) 0
    else ofRatio (decide (a.signedUnits + b.signedUnits < 0))
      (a.signedUnits + b.signedUnits).natAbs unitsInOne := by
    change add a b = _
    simp [add, ha.isNaN_eq_false, hb.isNaN_eq_false, ha.isInfinite_eq_false,
      hb.isInfinite_eq_false, unitsInOne]
  rw [hsum, hadd]
  split
  · next hzero =>
    rw [hzero, Int.cast_zero, zero_div]
    refine ⟨⟨0, ?_, rfl⟩, fun h => absurd h (lt_irrefl 0), fun h => absurd h (lt_irrefl 0)⟩
    simpa [unitsOf_zero] using roundsTo_unitsOf (K := K) 0
  · refine rounds_ofRatio unitsInOne_pos ?_ (fun h => ?_) fun h => ?_
    · rw [abs_div, abs_of_pos hpos, ← Int.cast_abs, Int.abs_eq_natAbs, Int.cast_natCast]
    · rw [div_lt_iff₀ hpos, zero_mul, Int.cast_lt_zero] at h
      exact decide_eq_true h
    · rw [lt_div_iff₀ hpos, zero_mul, Int.cast_pos] at h
      exact decide_eq_false (not_lt.mpr h.le)

/-- Quotients are correctly rounded. -/
theorem rounds_div (ha : a.IsFinite) (hb : b.IsFinite) (hzero : b.value K ≠ 0) :
    Rounds (a.value K / b.value K) (a / b) := by
  have hmagnitude : b.magnitude ≠ 0 := mt (value_eq_zero_iff K).mpr hzero
  have hunits : 0 < b.units := Nat.pos_of_ne_zero (mt unitsOf_eq_zero_iff.mp hmagnitude)
  have hdiv : a / b = ofRatio (a.negative != b.negative) a.units b.units := by
    change div a b = _
    simp [div, isZero, ha.isNaN_eq_false, hb.isNaN_eq_false, ha.isInfinite_eq_false,
      hb.isInfinite_eq_false, hmagnitude]
  rw [hdiv]
  refine rounds_ofRatio hunits ?_ (fun h => ?_) fun h => ?_
  · rw [abs_div, abs_value, abs_value, div_div_div_cancel_right₀ (unitsInOne_cast_pos K).ne']
  · rcases div_neg_iff.mp h with ⟨hpos, hneg⟩ | ⟨hneg, hpos⟩ <;>
      rw [negative_of_value_pos K hpos, negative_of_value_neg K hneg] <;> rfl
  · rcases div_pos_iff.mp h with ⟨ha, hb⟩ | ⟨ha, hb⟩
    · rw [negative_of_value_pos K ha, negative_of_value_pos K hb]
      rfl
    · rw [negative_of_value_neg K ha, negative_of_value_neg K hb]
      rfl

/-! ### Constants -/

theorem unitsOf_infinite : 0x20000000000000 * unitsInOne ≤ unitsOf infinite := by decide +kernel

/-- A number of at most 53 bits, divided by a power of two, is a double. -/
theorem exists_value_eq {n k : Nat} (hn : n < 0x20000000000000) (hk : k ≤ 1074) :
    ∃ y : Binary64, y.IsFinite ∧ y.value K = n / 2 ^ k := by
  obtain ⟨shift, hshift⟩ := exists_unitsInOne_eq hk
  obtain ⟨m, hm⟩ := exists_unitsOf_eq hn shift
  have hfinite : m < infinite := by
    refine unitsOf_strictMono.lt_iff_lt.mp ?_
    calc unitsOf m < 0x20000000000000 * 2 ^ shift := by
          rw [hm]
          exact Nat.mul_lt_mul_of_pos_right hn (Nat.two_pow_pos _)
      _ ≤ 0x20000000000000 * unitsInOne := by
          rw [hshift]
          exact Nat.mul_le_mul_left _ (Nat.le_mul_of_pos_left _ (Nat.two_pow_pos _))
      _ ≤ unitsOf infinite := unitsOf_infinite
  refine ⟨⟨false, m, Nat.lt_trans hfinite (by decide)⟩, hfinite, ?_⟩
  rw [value_of_not_negative K rfl, units, hm, hshift]
  push_cast
  exact mul_div_mul_right _ _ (by positivity)

theorem value_ofRatio {n k : Nat} (hn : n < 0x20000000000000) (hk : k ≤ 1074) :
    (ofRatio false n (2 ^ k)).IsFinite ∧ (ofRatio false n (2 ^ k)).value K = n / 2 ^ k := by
  obtain ⟨y, hy, hvalue⟩ := exists_value_eq (K := K) hn hk
  have hpos : (0 : K) ≤ n / 2 ^ k := by positivity
  have hround : Rounds (y.value K) (ofRatio false n (2 ^ k)) := by
    rw [hvalue]
    refine rounds_ofRatio (Nat.two_pow_pos k) ?_ (fun h => absurd h (not_lt.mpr hpos)) fun _ => rfl
    rw [abs_of_nonneg hpos]
    push_cast
    rfl
  exact ⟨hround.isFinite hy le_rfl, (hround.value_eq hy).trans hvalue⟩

end LinearLight.Binary64
