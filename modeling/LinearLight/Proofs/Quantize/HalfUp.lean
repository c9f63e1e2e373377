import Mathlib.Algebra.Order.Floor.Semiring
import LinearLight.Proofs.Binary64.Spacing
import LinearLight.Proofs.Quantize

/-!
# Rounding half up, and where it is missed

The whole part of an intensity scaled up is meant to be the exact product with 65535, rounded half
up. It is never less. But a product that lies below the half behind a whole number by no more than
half the spacing of doubles there is taken over it, by the product's own rounding; and below one
half, where doubles lie closer than they do behind it, also by the rounding of the sum. The result
is then one too many.

## Main definitions

- `halfUp`: a number rounded to a whole number, halves up
- `JustBelowHalf`: a product so near below a half that it is taken over it

## Main statements

- `toNat_quantize_eq_halfUp_add`: the result is one too many just below the halves, and else exact
- `not_quantize_eq_halfUp`: there is such an intensity just below the first half
-/

namespace LinearLight

open Binary64

/-- A number that is not negative, rounded to a whole number, halves up. -/
def halfUp (r : ℚ) : ℕ := ⌊r + 1 / 2⌋₊

/-- A product that rounds to `n` lies just below the half behind `n`. Where `n` has `k + 1` binary
digits, doubles are `2 ^ k / 2 ^ 52` apart. -/
def JustBelowHalf (n : ℕ) (product : ℚ) : Prop :=
  if n = 0 then 1 / 2 - 3 / 2 ^ 55 < product else n + 1 / 2 - 2 ^ n.log2 / 2 ^ 53 ≤ product

instance (n : ℕ) (product : ℚ) : Decidable (JustBelowHalf n product) := by
  unfold JustBelowHalf
  infer_instance

variable {y : Binary64} {n : ℕ}

/-- What is rounded to a whole number lies within one half of it. -/
theorem halfUp_bounds {r : ℚ} (hr : 0 ≤ r) :
    (halfUp r : ℚ) ≤ r + 1 / 2 ∧ r + 1 / 2 < halfUp r + 1 :=
  ⟨Nat.floor_le (by positivity), Nat.lt_floor_add_one _⟩

/-- No whole number up to the product's own is missed from below, for the half in front of it is a
double. -/
theorem le_value_scaledUp (h : inRange y = true) (hn : n < 0x10000)
    (hle : (n : ℚ) ≤ 65535 * y.value ℚ + 1 / 2) : (n : ℚ) ≤ (scaledUp y).value ℚ := by
  obtain ⟨hy, -, -⟩ := (inRange_iff ℚ).mp h
  obtain ⟨hproduct, -⟩ := product_bounds h
  obtain ⟨-, hlow, -⟩ := scaledUp_bounds h
  obtain _ | m := n
  · push_cast
    linarith
  · obtain ⟨half, hhalf, hhalfValue⟩ :=
      exists_value_eq (K := ℚ) (n := 2 * m + 1) (k := 1) (by omega) (by decide)
    obtain ⟨whole, hwhole, hwholeValue⟩ :=
      exists_value_eq (K := ℚ) (n := m + 1) (k := 0) (by omega) (by decide)
    push_cast at hle hhalfValue hwholeValue ⊢
    have hreached := (rounds_product hy).le_value hhalf (by rw [hhalfValue]; linarith)
    rw [hhalfValue] at hreached
    have hsum := (rounds_scaledUp hproduct).le_value hwhole (by rw [hwholeValue]; linarith)
    rw [hwholeValue] at hsum
    linarith

/-- Behind one, both roundings go up from half a step below, and doubles are no closer below the
half than behind it. So the sum comes to the next whole number just when the product comes to the
half. -/
theorem succ_le_value_scaledUp_iff (h : inRange y = true) (hpos : 0 < n) (hn : n < 0x10000) :
    (n + 1 : ℚ) ≤ (scaledUp y).value ℚ ↔
      n + 1 / 2 - 2 ^ n.log2 / 2 ^ 53 ≤ 65535 * y.value ℚ := by
  obtain ⟨hy, hzero, -⟩ := (inRange_iff ℚ).mp h
  obtain ⟨hproduct, hnonneg, -⟩ := product_bounds h
  obtain ⟨hsum, -⟩ := scaledUp_bounds h
  have hdigits : n.log2 < 16 := (Nat.log2_lt hpos.ne').mpr hn
  have hfirst : 2 ^ n.log2 ≤ n := Nat.log2_self_le hpos.ne'
  have hlast : n < 2 ^ (n.log2 + 1) := Nat.lt_log2_self
  -- in steps of `2 ^ -(j + 2)` all doubles concerned are counted by 53 bits
  obtain ⟨j, hj⟩ := Nat.exists_eq_add_of_le' (show 2 ≤ 52 - n.log2 by omega)
  have hsteps : 2 ^ n.log2 * (4 * 2 ^ j) = 0x10000000000000 := by
    rw [show 4 = 2 ^ 2 from rfl, ← pow_add, ← pow_add]
    exact congrArg (2 ^ ·) (by omega : n.log2 + (2 + j) = 52)
  have hgap : (2 ^ n.log2 / 2 ^ 53 : ℚ) * 2 ^ (j + 2) = 1 / 2 := by
    have hstepsCast : (2 ^ n.log2 * (4 * 2 ^ j) : ℚ) = 0x10000000000000 := by exact_mod_cast hsteps
    rw [pow_add, div_mul_eq_mul_div, div_eq_iff (by positivity)]
    linarith
  rw [pow_succ] at hlast
  have hscale : (0 : ℚ) < 2 ^ (j + 2) := by positivity
  -- the half behind `n` and the whole number behind that, counted in steps
  have hhalf : ((2 * n + 1) * (2 * 2 ^ j) : ℕ) = (n + 1 / 2 : ℚ) * 2 ^ (j + 2) := by
    push_cast
    ring
  have hwhole : ((n + 1) * (4 * 2 ^ j) : ℕ) = (n + 1 : ℚ) * 2 ^ (j + 2) := by
    push_cast
    ring
  have hlow : 0x10000000000000 < (2 * n + 1) * (2 * 2 ^ j) := by nlinarith
  have hhigh : (2 * n + 1) * (2 * 2 ^ j) ≤ 0x20000000000000 := by nlinarith
  have heven : (2 * n + 1) * (2 * 2 ^ j) % 2 = 0 := by
    rw [mul_left_comm, Nat.mul_mod_right]
  have hlow' : 0x10000000000000 < (n + 1) * (4 * 2 ^ j) := by nlinarith
  have hhigh' : (n + 1) * (4 * 2 ^ j) ≤ 0x20000000000000 := by nlinarith
  have heven' : (n + 1) * (4 * 2 ^ j) % 2 = 0 := by
    rw [show 4 = 2 * 2 from rfl, mul_assoc 2, mul_left_comm, Nat.mul_mod_right]
  have hk : j + 2 ≤ 1074 := by omega
  have hsumIff := (rounds_scaledUp hproduct).le_value_iff_of_even hsum (by positivity) hk
    hlow' hhigh' heven'
  have hproductIff := (rounds_product hy).le_value_iff_of_even hproduct (by positivity) hk
    hlow hhigh heven
  have hdoubleIff := (rounds_value (K := ℚ) hproduct).le_value_iff_of_even hproduct hnonneg hk
    hlow hhigh heven
  rw [hwhole, mul_div_assoc, div_self hscale.ne', mul_one] at hsumIff
  rw [hhalf] at hproductIff hdoubleIff
  calc (n + 1 : ℚ) ≤ (scaledUp y).value ℚ
      ↔ (n + 1 / 2) * 2 ^ (j + 2) - 1 / 2 ≤ (y * ofNat 65535).value ℚ * 2 ^ (j + 2) := by
        rw [hsumIff]
        constructor <;> intro hle <;> linarith
    _ ↔ (n + 1 / 2) * 2 ^ (j + 2) - 1 / 2 ≤ y.value ℚ * 65535 * 2 ^ (j + 2) := by
        rw [← hdoubleIff, hproductIff]
    _ ↔ n + 1 / 2 - 2 ^ n.log2 / 2 ^ 53 ≤ 65535 * y.value ℚ := by
        rw [← hgap, ← sub_mul, mul_le_mul_iff_left₀ hscale, mul_comm (65535 : ℚ)]

/-- Up to one half, the product is rounded to steps of `2 ^ -54`, and the sum to steps of `2 ^ -53`.
So the sum already comes to one when the product comes to the last double below the half, which has
an odd count. -/
theorem one_le_value_scaledUp_iff (h : inRange y = true) :
    1 ≤ (scaledUp y).value ℚ ↔ 1 / 2 - 3 / 2 ^ 55 < 65535 * y.value ℚ := by
  obtain ⟨hy, hzero, -⟩ := (inRange_iff ℚ).mp h
  obtain ⟨hproduct, hnonneg, -⟩ := product_bounds h
  obtain ⟨hsum, -⟩ := scaledUp_bounds h
  have hsumIff := (rounds_scaledUp hproduct).le_value_iff_of_even (k := 53)
    (c := 0x20000000000000) hsum (by positivity) (by decide) (by decide) (by decide) (by decide)
  have hproductIff := (rounds_product hy).le_value_iff (k := 54) (c := 0x1FFFFFFFFFFFFF) hproduct
    (by positivity) (by decide) (by decide) (by decide)
  norm_num at hsumIff hproductIff ⊢
  calc 1 ≤ (scaledUp y).value ℚ
      ↔ 9007199254740991 / 18014398509481984 ≤ (y * ofNat 65535).value ℚ := by
        rw [hsumIff]
        constructor <;> intro hle <;> linarith
    _ ↔ 18014398509481981 / 36028797018963968 < 65535 * y.value ℚ := by
        rw [hproductIff]
        constructor <;> intro hlt <;> linarith

/-- The number scaled up comes to the next whole number just below the half that the exact product
would have to reach. -/
theorem succ_halfUp_le_value_scaledUp_iff (h : inRange y = true) (hn : n < 0x10000) :
    (n + 1 : ℚ) ≤ (scaledUp y).value ℚ ↔ JustBelowHalf n (65535 * y.value ℚ) := by
  rcases Nat.eq_zero_or_pos n with rfl | hpos
  · simpa [JustBelowHalf] using one_le_value_scaledUp_iff h
  · rw [JustBelowHalf, if_neg hpos.ne']
    exact succ_le_value_scaledUp_iff h hpos hn

/-- The 16-bit result for an intensity is its exact product with 65535, rounded half up, except just
below the halves, where it is one more. -/
theorem toNat_quantize_eq_halfUp_add (h : inRange y = true) :
    (quantize y).toNat = halfUp (65535 * y.value ℚ) +
      if JustBelowHalf (halfUp (65535 * y.value ℚ)) (65535 * y.value ℚ) then 1 else 0 := by
  obtain ⟨-, hzero, hone⟩ := (inRange_iff ℚ).mp h
  obtain ⟨hle, hlt⟩ := halfUp_bounds (show 0 ≤ 65535 * y.value ℚ by positivity)
  obtain ⟨-, -, -, herror⟩ := scaledUp_bounds h
  generalize halfUp (65535 * y.value ℚ) = n at hle hlt ⊢
  have hn : n < 0x10000 := by
    have hcast : (n : ℚ) < 0x10000 := by linarith
    exact_mod_cast hcast
  have hlow := le_value_scaledUp h hn hle
  have hnext := succ_halfUp_le_value_scaledUp_iff h hn
  -- the errors of the two roundings do not add up to a whole one more
  have hhigh : (scaledUp y).value ℚ < n + 2 := by
    have hbelow := (abs_le.mp herror).2
    norm_num at hbelow
    linarith
  have hfloor := toNat_quantize h
  split
  · next hjust =>
    have hwhole : ⌊(scaledUp y).value ℚ⌋ = (n + 1 : ℕ) :=
      Int.floor_eq_iff.mpr ⟨by exact_mod_cast hnext.mpr hjust, by push_cast; linarith⟩
    omega
  · next hjust =>
    have hwhole : ⌊(scaledUp y).value ℚ⌋ = (n : ℕ) :=
      Int.floor_eq_iff.mpr ⟨by exact_mod_cast hlow, by exact_mod_cast not_le.mp (mt hnext.mp hjust)⟩
    omega

/-! ### An intensity just below the first half -/

/-- Its product with 65535 is less than one half by `2 ^ -65`. -/
theorem value_below_first_half :
    (ofBits 0x3EE0001000100010).value ℚ = 0x10001000100010 / 2 ^ 69 := by
  have hunits : (ofBits 0x3EE0001000100010).units * 2 ^ 69 = 0x10001000100010 * unitsInOne := by
    decide +kernel
  have hcast := congrArg (Nat.cast (R := ℚ)) hunits
  rw [Nat.cast_mul, Nat.cast_mul, Nat.cast_pow, Nat.cast_ofNat, Nat.cast_ofNat] at hcast
  rw [value_of_not_negative ℚ (by decide),
    div_eq_div_iff (unitsInOne_cast_pos ℚ).ne' (by positivity)]
  exact hcast

theorem halfUp_below_first_half : halfUp (65535 * (ofBits 0x3EE0001000100010).value ℚ) = 0 := by
  rw [halfUp, Nat.floor_eq_zero, value_below_first_half]
  norm_num

theorem toNat_quantize_eq_halfUp_add_below_first_half :
    inRange (ofBits 0x3EE0001000100010) = true ∧
      JustBelowHalf 0 (65535 * (ofBits 0x3EE0001000100010).value ℚ) ∧
      (quantize (ofBits 0x3EE0001000100010)).toNat = 1 := by
  have hrange : inRange (ofBits 0x3EE0001000100010) = true := by decide +kernel
  have hjust : JustBelowHalf 0 (65535 * (ofBits 0x3EE0001000100010).value ℚ) := by
    rw [JustBelowHalf, if_pos rfl, value_below_first_half]
    norm_num
  have hresult := toNat_quantize_eq_halfUp_add hrange
  rw [halfUp_below_first_half, if_pos hjust] at hresult
  exact ⟨hrange, hjust, hresult⟩

/-- The result is not the exact product rounded half up for every intensity. -/
theorem not_quantize_eq_halfUp :
    ¬ ∀ y : Binary64, inRange y = true →
      (quantize y).toNat = halfUp (65535 * y.value ℚ) := by
  intro hall
  have hresult := hall (ofBits 0x3EE0001000100010) (by decide +kernel)
  rw [halfUp_below_first_half] at hresult
  exact absurd hresult (by decide +kernel)

end LinearLight
