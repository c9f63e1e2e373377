import Mathlib.Algebra.Order.Floor.Ring
import Mathlib.Data.Rat.Floor
import LinearLight.Proofs.Curve
import LinearLight.Tables

/-!
# How near the 16-bit and 8-bit results come

An intensity is scaled up with two roundings, each of which moves it by at most `2 ^ -38`, and the
whole part of the result is taken. The high byte of that, on a scale with 65535 / 256 for 255, still
stays within a step of the intensity on the scale of 8 bits.

## Main definitions

- `Nearness`: what holds of the results for an intensity

## Main statements

- `scaledUp_bounds`: what the two roundings do
- `abs_toNat_quantize_sub_le`, `abs_toNat_highByte_sub_lt`: the errors
- `quantize_near`: the results come near all intensities between 0 and 1
-/

namespace LinearLight

open Binary64

/-- The results for an intensity come near it: the number of which the whole part is taken is in the
range of 16 bits with one half added, and is not clamped; the 16-bit result is no further from the
exact scale than rounding would be, up to a tiny error; and the 8-bit result is less than a step
away. -/
structure Nearness (y : Binary64) : Prop where
  isFinite : (scaledUp y).IsFinite
  half_le : 1 / 2 ≤ (scaledUp y).value ℚ
  le_top : (scaledUp y).value ℚ ≤ 131071 / 2
  whole_part : ((quantize y).toNat : ℤ) = ⌊(scaledUp y).value ℚ⌋
  error16 : |((quantize y).toNat : ℚ) - 65535 * y.value ℚ| ≤ 1 / 2 + 1 / 2 ^ 36
  error8 : |((highByte (quantize y)).toNat : ℚ) - 255 * y.value ℚ| < 1

theorem toNat_highByte (v : UInt16) : (highByte v).toNat = v.toNat / 256 := by
  have hv := v.toNat_lt
  rw [highByte, UInt16.toNat_toUInt8, UInt16.toNat_shiftRight, Nat.shiftRight_eq_div_pow]
  simp only [UInt16.reduceToNat, Nat.reduceMod, Nat.reducePow] at hv ⊢
  omega

/-- The whole part of a number that is not negative. -/
theorem truncate_eq {x : Binary64} (hx : x.IsFinite) (hsign : x.negative = false) (limit : Nat) :
    (x.truncate limit : ℤ) = min ⌊x.value ℚ⌋ limit := by
  have hfloor : ⌊x.value ℚ⌋ = (x.units / unitsInOne : ℤ) := by
    rw [value_of_not_negative ℚ hsign]
    exact Rat.floor_natCast_div_natCast _ _
  have htruncate : x.truncate limit = min (x.units / unitsInOne) limit := by
    rw [truncate, hx.isNaN_eq_false, hsign, shiftRight_1074]
    rfl
  rw [hfloor, htruncate]
  push_cast
  rfl

/-! ### The number scaled up -/

theorem value_65535 : (ofNat 65535).IsFinite ∧ (ofNat 65535).value ℚ = 65535 := by
  obtain ⟨hfinite, hvalue⟩ := value_ofRatio (K := ℚ) (n := 65535) (k := 0) (by decide) (by decide)
  exact ⟨hfinite, hvalue.trans (by norm_num)⟩

theorem value_top : (ofRatio false 131071 2).IsFinite ∧
    (ofRatio false 131071 2).value ℚ = 131071 / 2 := by
  obtain ⟨hfinite, hvalue⟩ := value_ofRatio (K := ℚ) (n := 131071) (k := 1) (by decide) (by decide)
  exact ⟨hfinite, hvalue.trans (by norm_num)⟩

theorem value_half : (ofRatio false 1 2).IsFinite ∧ (ofRatio false 1 2).value ℚ = 1 / 2 := by
  obtain ⟨hfinite, hvalue⟩ := value_ofRatio (K := ℚ) (n := 1) (k := 1) (by decide) (by decide)
  exact ⟨hfinite, hvalue.trans (by norm_num)⟩

/-- A number on the scale of 16 bits takes 53 bits down to `2 ^ -37`, and rounding moves it by at
most half of that. -/
theorem abs_value_sub_le_of_scale {r : ℚ} {x : Binary64} (h : Rounds r x) (hx : x.IsFinite)
    (hr : |r| ≤ 65536) : |x.value ℚ - r| ≤ 1 / 2 ^ 38 := by
  have hscale : |r| * 2 ^ 37 ≤ 0x20000000000000 := by
    norm_num
    linarith
  have herror := h.abs_value_sub_le hx (by decide) hscale
  rw [← le_div_iff₀ (by positivity)] at herror
  exact herror.trans_eq (by norm_num)

theorem rounds_product {y : Binary64} (hy : y.IsFinite) :
    Rounds (y.value ℚ * 65535) (y * ofNat 65535) := by
  obtain ⟨hfactor, hvalue⟩ := value_65535
  rw [← hvalue]
  exact rounds_mul hy hfactor

/-- The product with 65535. -/
theorem product_bounds {y : Binary64} (h : inRange y = true) :
    (y * ofNat 65535).IsFinite ∧ 0 ≤ (y * ofNat 65535).value ℚ ∧
      (y * ofNat 65535).value ℚ ≤ 65535 ∧
      |(y * ofNat 65535).value ℚ - y.value ℚ * 65535| ≤ 1 / 2 ^ 38 := by
  obtain ⟨hy, hzero, hone⟩ := (inRange_iff ℚ).mp h
  obtain ⟨hfactor, hvalue⟩ := value_65535
  have hround := rounds_product hy
  have hnonneg : 0 ≤ y.value ℚ * 65535 := by positivity
  have hle : y.value ℚ * 65535 ≤ 65535 := by linarith
  obtain ⟨hfinite, hlow, hhigh⟩ := hround.value_mem isFinite_zero hfactor hnonneg
    (by rwa [value_zero]) (by rwa [hvalue])
  rw [value_zero] at hlow
  rw [hvalue] at hhigh
  refine ⟨hfinite, hlow, hhigh, abs_value_sub_le_of_scale hround hfinite ?_⟩
  rw [abs_of_nonneg hnonneg]
  linarith

theorem rounds_scaledUp {y : Binary64} (hproduct : (y * ofNat 65535).IsFinite) :
    Rounds ((y * ofNat 65535).value ℚ + 1 / 2) (scaledUp y) := by
  obtain ⟨hhalf, hvalue⟩ := value_half
  rw [← hvalue]
  exact rounds_add hproduct hhalf

/-- What the two roundings do. -/
theorem scaledUp_bounds {y : Binary64} (h : inRange y = true) :
    (scaledUp y).IsFinite ∧ 1 / 2 ≤ (scaledUp y).value ℚ ∧ (scaledUp y).value ℚ ≤ 131071 / 2 ∧
      |(scaledUp y).value ℚ - (65535 * y.value ℚ + 1 / 2)| ≤ 1 / 2 ^ 37 := by
  obtain ⟨hfiniteProduct, hzero, hle, hproduct⟩ := product_bounds h
  obtain ⟨hhalf, hvalue⟩ := value_half
  obtain ⟨htop, htopValue⟩ := value_top
  have hround := rounds_scaledUp hfiniteProduct
  have hnonneg : 0 ≤ (y * ofNat 65535).value ℚ + 1 / 2 := by positivity
  obtain ⟨hfinite, hlow, hhigh⟩ := hround.value_mem hhalf htop hnonneg
    (by rw [hvalue]; linarith) (by rw [htopValue]; linarith)
  rw [hvalue] at hlow
  rw [htopValue] at hhigh
  have hsum := abs_value_sub_le_of_scale hround hfinite (by rw [abs_of_nonneg hnonneg]; linarith)
  refine ⟨hfinite, hlow, hhigh, ?_⟩
  calc |(scaledUp y).value ℚ - (65535 * y.value ℚ + 1 / 2)|
      = |((scaledUp y).value ℚ - ((y * ofNat 65535).value ℚ + 1 / 2)) +
          ((y * ofNat 65535).value ℚ - y.value ℚ * 65535)| := by ring_nf
    _ ≤ 1 / 2 ^ 38 + 1 / 2 ^ 38 := (abs_add_le _ _).trans (add_le_add hsum hproduct)
    _ = 1 / 2 ^ 37 := by norm_num

/-! ### The results -/

/-- The 16-bit result is the whole part, and no number is clamped. -/
theorem toNat_quantize {y : Binary64} (h : inRange y = true) :
    ((quantize y).toNat : ℤ) = ⌊(scaledUp y).value ℚ⌋ := by
  obtain ⟨hfinite, hlow, hhigh, -⟩ := scaledUp_bounds h
  have hsign : (scaledUp y).negative = false := negative_of_value_pos ℚ (by linarith)
  have htruncate := truncate_eq hfinite hsign 65535
  have htop : ⌊(scaledUp y).value ℚ⌋ < 65536 := Int.floor_lt.mpr (by push_cast; linarith)
  rw [quantize, UInt16.toNat_ofNat']
  omega

/-- The 16-bit result is off by one half, as every rounding to whole numbers is, and by what the two
roundings add. -/
theorem abs_toNat_quantize_sub_le {y : Binary64} (h : inRange y = true) :
    |((quantize y).toNat : ℚ) - 65535 * y.value ℚ| ≤ 1 / 2 + 1 / 2 ^ 37 := by
  obtain ⟨-, -, -, herror⟩ := scaledUp_bounds h
  obtain ⟨hbelow, habove⟩ := abs_le.mp herror
  have hwhole : ((quantize y).toNat : ℚ) = (⌊(scaledUp y).value ℚ⌋ : ℤ) := by
    rw [← toNat_quantize h, Int.cast_natCast]
  have hle := Int.floor_le ((scaledUp y).value ℚ)
  have hlt := Int.lt_floor_add_one ((scaledUp y).value ℚ)
  rw [abs_le, hwhole]
  constructor <;> linarith

/-- The 8-bit result is off by what the truncation takes, up to 255 / 256 of a step, less or more
what the scales differ by. -/
theorem abs_toNat_highByte_sub_lt {y : Binary64} (h : inRange y = true) :
    |((highByte (quantize y)).toNat : ℚ) - 255 * y.value ℚ| < 1 := by
  obtain ⟨-, hzero, hone⟩ := (inRange_iff ℚ).mp h
  obtain ⟨hbelow, habove⟩ := abs_le.mp (abs_toNat_quantize_sub_le h)
  have hbyte : (highByte (quantize y)).toNat = (quantize y).toNat / 256 := toNat_highByte _
  have hle : ((highByte (quantize y)).toNat : ℚ) * 256 ≤ (quantize y).toNat := by
    exact_mod_cast (by omega : (highByte (quantize y)).toNat * 256 ≤ (quantize y).toNat)
  have hge : ((quantize y).toNat : ℚ) ≤ (highByte (quantize y)).toNat * 256 + 255 := by
    exact_mod_cast (by omega : (quantize y).toNat ≤ (highByte (quantize y)).toNat * 256 + 255)
  rw [abs_lt]
  norm_num at hbelow habove ⊢
  constructor <;> linarith

/-- The results come near every intensity between 0 and 1, and so near every one that decoding
gives. -/
theorem quantize_near {y : Binary64} (h : inRange y = true ∨ ∃ x, decode x = .ok y) :
    inRange y = true ∧ Nearness y := by
  have hrange : inRange y = true := by
    rcases h with h | ⟨x, h⟩
    · exact h
    · exact inRange_of_decode h
  obtain ⟨hfinite, hlow, hhigh, -⟩ := scaledUp_bounds hrange
  have herror := abs_toNat_quantize_sub_le hrange
  exact ⟨hrange, {
    isFinite := hfinite
    half_le := hlow
    le_top := hhigh
    whole_part := toNat_quantize hrange
    error16 := herror.trans (by norm_num)
    error8 := abs_toNat_highByte_sub_lt hrange }⟩

/-- The intensity of the display value 188 / 255, a little above one half. -/
theorem quantize_near_of_grey :
    decode (Tables.gridPoint 188) = .ok (.ofBits 0x3FE05D5EF56B66B7) ∧
      inRange (.ofBits 0x3FE05D5EF56B66B7) = true ∧ Nearness (.ofBits 0x3FE05D5EF56B66B7) := by
  have h : decode (Tables.gridPoint 188) = .ok (.ofBits 0x3FE05D5EF56B66B7) := by decide +kernel
  exact ⟨h, quantize_near (.inr ⟨_, h⟩)⟩

end LinearLight
