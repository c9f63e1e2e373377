import LinearLight.Proofs.Binary64.Arithmetic

/-!
# Rounding by the spacing of doubles

Where doubles lie `2 ^ -k` apart, they are the multiples of that, and counting in multiples makes
rounding a question about naturals: the result is at least a multiple just when the number has come
within half a step of it, or on the half itself if the multiple is even. And as the spacing goes
with the number, so does the error.

## Main statements

- `Binary64.Rounds.le_value_iff`: when the result is no less than a double
- `Binary64.Rounds.abs_value_sub_le_mul`: the error as a part of the number
-/

namespace LinearLight.Binary64

variable {K : Type*} [Field K] [LinearOrder K] [IsStrictOrderedRing K] {r : K} {x : Binary64}

namespace Rounds

/-- The result for a number that is not negative is its units, also where the sign is left open. -/
theorem value_eq_units (h : Rounds r x) (hr : 0 ≤ r) : x.value K = x.units / unitsInOne := by
  rcases hr.lt_or_eq with hpos | rfl
  · exact value_of_not_negative K (h.negative_of_pos hpos)
  · have hzero := h.magnitude_of_zero
    rw [(value_eq_zero_iff K).mpr hzero, units, hzero, unitsOf_zero, Nat.cast_zero, zero_div]

/-- A result that is finite is beyond a magnitude just when the number is past the midpoint behind
it. -/
theorem lt_magnitude_iff (h : Rounds r x) (hx : x.IsFinite) (hr : 0 ≤ r) {m : Nat} :
    m < x.magnitude ↔ Past (r * unitsInOne) m := by
  obtain ⟨n, hn, hmagnitude⟩ := h.exists_roundsTo
  obtain rfl : x.magnitude = n := by
    rw [IsFinite] at hx
    omega
  rw [abs_of_nonneg hr] at hn
  exact hn.past_iff.symm

/-- The result is no less than the double `c / 2 ^ k`, which has a neighbour one step below, just
when the number is beyond the half between the two. It goes up from the half itself if the count is
even. -/
theorem le_value_iff {k c : Nat} (h : Rounds r x) (hx : x.IsFinite) (hr : 0 ≤ r)
    (hk : k ≤ 1074) (hlow : 0x10000000000000 < c) (hhigh : c ≤ 0x20000000000000) :
    (c / 2 ^ k : K) ≤ x.value K ↔
      (c - 1 / 2 : K) < r * 2 ^ k ∨ (c - 1 / 2 : K) = r * 2 ^ k ∧ c % 2 = 0 := by
  obtain ⟨shift, hshift⟩ := exists_unitsInOne_eq hk
  obtain ⟨below, rfl⟩ : ∃ below, c = below + 1 := ⟨c - 1, by omega⟩
  have hunits : (unitsInOne : K) = 2 ^ k * 2 ^ shift := by
    rw [hshift]
    push_cast
    rfl
  have hpos : (0 : K) < 2 ^ shift := by positivity
  have hscale : (0 : K) < 2 ^ k := by positivity
  -- the double and its neighbour, as magnitudes
  have hdouble : unitsOf (shift * 0x10000000000000 + below + 1) = (below + 1) * 2 ^ shift := by
    rw [Nat.add_assoc]
    exact unitsOf_add hhigh (.inr (by omega))
  have hneighbour : unitsOf (shift * 0x10000000000000 + below) = below * 2 ^ shift :=
    unitsOf_add (by omega) (.inr (by omega))
  have hleft : ((below + 1 : Nat) / 2 ^ k : K) ≤ x.value K ↔
      shift * 0x10000000000000 + below < x.magnitude := by
    rw [h.value_eq_units hr, hunits, div_le_div_iff₀ hscale (mul_pos hscale hpos),
      mul_comm (x.units : K), mul_left_comm, mul_le_mul_iff_right₀ hscale, ← Nat.succ_le_iff,
      ← unitsOf_strictMono.le_iff_le, Nat.succ_eq_add_one, hdouble, units]
    norm_cast
  have hmidpoint : (midpoint (shift * 0x10000000000000 + below) : K) =
      2 * ((below + 1 : Nat) - 1 / 2) * 2 ^ shift := by
    rw [midpoint, hdouble, hneighbour]
    push_cast
    ring
  have hnumber : 2 * (r * unitsInOne) = 2 * (r * 2 ^ k) * 2 ^ shift := by
    rw [hunits]
    ring
  have hparity : (shift * 0x10000000000000 + below) % 2 = 1 ↔ (below + 1) % 2 = 0 := by omega
  rw [hleft, h.lt_magnitude_iff hx hr, Past, hmidpoint, hnumber, hparity,
    mul_lt_mul_iff_left₀ hpos, mul_lt_mul_iff_right₀ two_pos, mul_left_inj' hpos.ne',
    mul_right_inj' two_ne_zero]

theorem le_value_iff_of_even {k c : Nat} (h : Rounds r x) (hx : x.IsFinite) (hr : 0 ≤ r)
    (hk : k ≤ 1074) (hlow : 0x10000000000000 < c) (hhigh : c ≤ 0x20000000000000)
    (heven : c % 2 = 0) : (c / 2 ^ k : K) ≤ x.value K ↔ (c - 1 / 2 : K) ≤ r * 2 ^ k := by
  rw [h.le_value_iff hx hr hk hlow hhigh, and_iff_left heven, le_iff_lt_or_eq]

/-- A number up to one is moved by at most half the spacing of doubles below one. -/
theorem abs_value_sub_le_of_le_one (h : Rounds r x) (hx : x.IsFinite) (hone : |r| ≤ 1) :
    |x.value K - r| ≤ 1 / 2 ^ 54 := by
  have hrange : |r| * 2 ^ 53 ≤ 0x20000000000000 := by
    norm_num
    linarith
  have herror := h.abs_value_sub_le hx (by decide) hrange
  rw [← le_div_iff₀ (by positivity)] at herror
  exact herror.trans_eq (by norm_num)

/-- A number up to one that is not subnormal is moved by at most `2 ^ -53` of itself. -/
theorem abs_value_sub_le_mul [Archimedean K] (h : Rounds r x) (hx : x.IsFinite) (hone : |r| ≤ 1)
    (hnormal : 1 < |r| * 2 ^ 1022) : |x.value K - r| ≤ |r| / 2 ^ 53 := by
  have hpos : 0 < |r| := pos_of_mul_pos_left (zero_lt_one.trans hnormal) (by positivity)
  -- the powers of two between which the number lies give the spacing
  obtain ⟨n, hle, hlt⟩ := exists_nat_pow_near (one_le_inv₀ hpos |>.mpr hone) one_lt_two
  rw [le_inv_comm₀ (by positivity) hpos, ← one_div, le_div_iff₀ (by positivity)] at hle
  rw [inv_lt_comm₀ hpos (by positivity), ← one_div, div_lt_iff₀ (by positivity)] at hlt
  have hn : n < 1022 := by
    rw [← pow_lt_pow_iff_right₀ (one_lt_two (α := K)), ← mul_lt_mul_iff_right₀ hpos]
    exact hle.trans_lt hnormal
  have hrange : |r| * 2 ^ (n + 53) ≤ 0x20000000000000 := by
    calc |r| * 2 ^ (n + 53) = |r| * 2 ^ n * 2 ^ 53 := by rw [pow_add, mul_assoc]
      _ ≤ 1 * 2 ^ 53 := mul_le_mul_of_nonneg_right hle (by positivity)
      _ = 0x20000000000000 := by norm_num
  have herror := h.abs_value_sub_le hx (show n + 53 ≤ 1074 by omega) hrange
  refine le_of_mul_le_mul_right ?_ (show (0 : K) < 2 ^ (n + 53) by positivity)
  calc |x.value K - r| * 2 ^ (n + 53) ≤ 1 / 2 := herror
    _ ≤ |r| * 2 ^ (n + 1) / 2 := by linarith
    _ = |r| / 2 ^ 53 * 2 ^ (n + 53) := by
      rw [pow_add, pow_add]
      field_simp

end Rounds

end LinearLight.Binary64
