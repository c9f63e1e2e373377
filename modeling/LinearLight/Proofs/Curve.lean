import LinearLight.Curve
import LinearLight.Proofs.Binary64.Power

/-!
# The curve stays in range

An intensity is the correctly rounded power of its display value, and no power of a number between 0
and 1 leaves that range.

## Main statements

- `rounds_pow_of_inRange`, `inRange_pow`: powers of numbers between 0 and 1
- `rounds_intensity`: intensities are correctly rounded
- `inRange_of_decode`: what decoding gives is in range
-/

namespace LinearLight

open Binary64

variable {x y : Binary64}

theorem decode_eq_ok_iff : decode x = .ok y ↔ inRange x = true ∧ intensity x = y := by
  cases h : inRange x <;> simp [decode, h]

theorem rounds_gamma : Rounds (22 / 10 : ℝ) gamma := by
  refine rounds_ofRatio (by decide) ?_ (fun h => ?_) fun _ => rfl
  · rw [abs_of_nonneg (by positivity)]
    norm_num
  · norm_num at h

theorem gamma_pos : 0 < gamma.value ℝ := by
  obtain ⟨two, htwo, hvalue⟩ := exists_value_eq (K := ℝ) (n := 2) (k := 0) (by decide) (by decide)
  have hle : two.value ℝ ≤ gamma.value ℝ := rounds_gamma.le_value htwo (by rw [hvalue]; norm_num)
  rw [hvalue] at hle
  norm_num at hle
  linarith

/-- In range, powers are correctly rounded, those of the zeros included. -/
theorem rounds_pow_of_inRange (h : inRange x = true) {e : Binary64} (he : 0 < e.value ℝ) :
    Rounds (x.value ℝ ^ e.value ℝ) (x.pow (.ofBinary64 e)) := by
  obtain ⟨hfinite, hzero, -⟩ := (inRange_iff ℝ).mp h
  have hexponent : (Exponent.ofBinary64 e).value ℝ = e.value ℝ := by
    rw [value_ofBinary64, value_of_not_negative ℝ (negative_of_value_pos ℝ he)]
  rcases hzero.lt_or_eq with hpos | heq
  · rw [← hexponent]
    exact rounds_pow hfinite hpos _
  · -- both zeros go to zero
    have hpow : x.pow (.ofBinary64 e) = zero := by
      have hmagnitude : x.isZero = true := decide_eq_true ((value_eq_zero_iff ℝ).mp heq.symm)
      simp [pow, hfinite.isNaN_eq_false, hmagnitude]
    rw [hpow, ← heq, Real.zero_rpow he.ne', ← value_zero ℝ]
    exact rounds_value isFinite_zero

/-- No power leaves the range. -/
theorem inRange_pow (h : inRange x = true) {e : Binary64} (he : 0 < e.value ℝ) :
    inRange (x.pow (.ofBinary64 e)) = true := by
  obtain ⟨-, hzero, hone⟩ := (inRange_iff ℝ).mp h
  have hpower : 0 ≤ x.value ℝ ^ e.value ℝ := Real.rpow_nonneg hzero _
  have hle : x.value ℝ ^ e.value ℝ ≤ 1 := Real.rpow_le_one hzero hone he.le
  have hmem := (rounds_pow_of_inRange h he).value_mem isFinite_zero isFinite_one hpower
    (by rwa [value_zero]) (by rwa [value_one])
  rw [value_zero, value_one] at hmem
  exact (inRange_iff ℝ).mpr hmem

/-- Intensities are correctly rounded. -/
theorem rounds_intensity (h : inRange x = true) :
    Rounds (x.value ℝ ^ gamma.value ℝ) (intensity x) :=
  rounds_pow_of_inRange h gamma_pos

theorem inRange_intensity (h : inRange x = true) : inRange (intensity x) = true :=
  inRange_pow h gamma_pos

/-- What decoding gives is in range. -/
theorem inRange_of_decode (h : decode x = .ok y) : inRange y = true := by
  obtain ⟨hx, rfl⟩ := decode_eq_ok_iff.mp h
  exact inRange_intensity hx

end LinearLight
