import LinearLight.Proofs.Binary64.Spacing
import LinearLight.Proofs.Curve

/-!
# Decoding and encoding undo each other

The two exponents are doubles, and their product is one only nearly. Powers of numbers between 0 and
1 hardly move with the exponent, so that does little harm. Decoding first, its rounding moves the
power by a small part of itself, which the root makes smaller; where the power is subnormal or goes
to zero, everything is tiny. Encoding first, its rounding is made at most three times as large by
the power.

## Main statements

- `rpow_sub_rpow_le`, `abs_rpow_sub_rpow_le`, `abs_root_sub_root_le`: how powers move with exponent
  and base
- `abs_value_gamma_mul_inverseGamma_sub_one_le`: the product of the two exponents
- `curve_inverse`: both ways round, a number comes back to within `1 / 10 ^ 9`
-/

namespace LinearLight

open Binary64

/-! ### Powers of numbers between 0 and 1 -/

section Powers

variable {a b p q ε : ℝ}

/-- A larger exponent makes the power smaller, that of zero included. -/
theorem rpow_le_rpow_of_le (ha : 0 ≤ a) (hone : a ≤ 1) (hp : 0 < p) (hpq : p ≤ q) :
    a ^ q ≤ a ^ p :=
  Real.rpow_le_rpow_of_exponent_ge_of_imp ha hone hpq fun _ hq => absurd hq (hp.trans_le hpq).ne'

/-- It makes it smaller by no more than the exponent grows in proportion. -/
theorem rpow_sub_rpow_le (ha : 0 ≤ a) (hone : a ≤ 1) (hp : 0 < p) (hpq : p ≤ q) :
    a ^ p - a ^ q ≤ (q - p) / p := by
  rcases ha.eq_or_lt with rfl | hpos
  · rw [Real.zero_rpow hp.ne', Real.zero_rpow (hp.trans_le hpq).ne', sub_zero]
    exact div_nonneg (sub_nonneg.mpr hpq) hp.le
  · have hu : 0 < a ^ p := Real.rpow_pos_of_pos hpos p
    -- the factor between the powers is no less than its tangent at 0
    have hfactor : Real.log a * (q - p) + 1 ≤ a ^ (q - p) := by
      rw [Real.rpow_def_of_pos hpos]
      exact Real.add_one_le_exp _
    have hentropy : -(a ^ p * Real.log (a ^ p)) ≤ 1 := by
      have hlog := Real.one_sub_inv_le_log_of_pos hu
      have hmul := mul_le_mul_of_nonneg_left hlog hu.le
      rw [mul_sub, mul_one, mul_inv_cancel₀ hu.ne'] at hmul
      linarith
    calc a ^ p - a ^ q = a ^ p * (1 - a ^ (q - p)) := by
          rw [mul_sub, mul_one, ← Real.rpow_add hpos, add_sub_cancel]
      _ ≤ a ^ p * -(Real.log a * (q - p)) :=
          mul_le_mul_of_nonneg_left (by linarith) hu.le
      _ = (q - p) / p * -(a ^ p * Real.log (a ^ p)) := by
          rw [Real.log_rpow hpos]
          field_simp
      _ ≤ (q - p) / p * 1 :=
          mul_le_mul_of_nonneg_left hentropy (div_nonneg (sub_nonneg.mpr hpq) hp.le)
      _ = (q - p) / p := mul_one _

/-- An exponent near one hardly moves a number. -/
theorem abs_rpow_sub_self_le (ha : 0 ≤ a) (hone : a ≤ 1) (hp : 1 / 2 ≤ p) :
    |a ^ p - a| ≤ 2 * |p - 1| := by
  rcases le_total p 1 with hle | hge
  · have hmove := rpow_sub_rpow_le ha hone (by linarith) hle
    have hsmaller : a ^ (1 : ℝ) ≤ a ^ p := rpow_le_rpow_of_le ha hone (by linarith) hle
    have hpart : (1 - p) / p ≤ 2 * (1 - p) := by
      rw [div_le_iff₀ (by linarith)]
      nlinarith
    rw [Real.rpow_one] at hmove hsmaller
    rw [abs_of_nonneg (by linarith), abs_of_nonpos (by linarith)]
    linarith
  · have hmove := rpow_sub_rpow_le ha hone one_pos hge
    have hsmaller : a ^ p ≤ a ^ (1 : ℝ) := rpow_le_rpow_of_le ha hone one_pos hge
    rw [Real.rpow_one, div_one] at hmove
    rw [Real.rpow_one] at hsmaller
    rw [abs_of_nonpos (by linarith), abs_of_nonneg (by linarith)]
    linarith

theorem rpow_sub_rpow_le_three_mul (ha : 0 ≤ a) (hab : a ≤ b) (hone : b ≤ 1) (hp : 1 ≤ p)
    (hthree : p ≤ 3) : b ^ p - a ^ p ≤ 3 * (b - a) := by
  rcases (ha.trans hab).eq_or_lt with hzero | hpos
  · obtain rfl : a = b := le_antisymm hab (hzero ▸ ha)
    simp
  · -- the smaller number as a part of the larger one
    obtain ⟨s, hs, rfl⟩ : ∃ s, 0 ≤ s ∧ a = b * s := ⟨a / b, by positivity, by field_simp⟩
    have hs1 : s ≤ 1 := by
      by_contra! h
      nlinarith
    have hcube : s ^ 3 ≤ s ^ p := by
      rw [← Real.rpow_natCast]
      exact rpow_le_rpow_of_le hs hs1 (by linarith) (by exact_mod_cast hthree)
    have hpower : b ^ p ≤ b := by
      have hsmaller := rpow_le_rpow_of_le hpos.le hone one_pos hp
      rwa [Real.rpow_one] at hsmaller
    have hpart : 1 - s ^ 3 ≤ 3 * (1 - s) := by nlinarith [mul_nonneg hs (sub_nonneg.mpr hs1)]
    have hnonneg : 0 ≤ 1 - s := sub_nonneg.mpr hs1
    calc b ^ p - (b * s) ^ p = b ^ p * (1 - s ^ p) := by
          rw [Real.mul_rpow hpos.le hs]
          ring
      _ ≤ b ^ p * (3 * (1 - s)) :=
          mul_le_mul_of_nonneg_left (by linarith) (Real.rpow_nonneg hpos.le p)
      _ ≤ b * (3 * (1 - s)) := mul_le_mul_of_nonneg_right hpower (by linarith)
      _ = 3 * (b - b * s) := by ring

/-- With an exponent of at most three, no power moves more than three times as far as its base. -/
theorem abs_rpow_sub_rpow_le (ha : 0 ≤ a) (ha1 : a ≤ 1) (hb : 0 ≤ b) (hb1 : b ≤ 1) (hp : 1 ≤ p)
    (hthree : p ≤ 3) : |a ^ p - b ^ p| ≤ 3 * |a - b| := by
  rcases le_total a b with hab | hba
  · have hmove := rpow_sub_rpow_le_three_mul ha hab hb1 hp hthree
    have hpower := Real.rpow_le_rpow ha hab (by linarith : 0 ≤ p)
    rw [abs_of_nonpos (by linarith), abs_of_nonpos (by linarith)]
    linarith
  · have hmove := rpow_sub_rpow_le_three_mul hb hba ha1 hp hthree
    have hpower := Real.rpow_le_rpow hb hba (by linarith : 0 ≤ p)
    rw [abs_of_nonneg (by linarith), abs_of_nonneg (by linarith)]
    linarith

/-- A root moves by no larger a part of itself than its base. -/
theorem abs_root_sub_root_le (ha : 0 ≤ a) (hε : 0 ≤ ε) (hε1 : ε ≤ 1) (h : |b - a| ≤ a * ε)
    (hp : 0 < p) (hp1 : p ≤ 1) : |b ^ p - a ^ p| ≤ a ^ p * ε := by
  obtain ⟨hlow, hhigh⟩ := abs_le.mp h
  have hpower : 0 ≤ a ^ p := Real.rpow_nonneg ha p
  have hup : b ^ p ≤ a ^ p * (1 + ε) := by
    calc b ^ p ≤ (a * (1 + ε)) ^ p := Real.rpow_le_rpow (by nlinarith) (by linarith) hp.le
      _ = a ^ p * (1 + ε) ^ p := Real.mul_rpow ha (by linarith)
      _ ≤ a ^ p * (1 + ε) ^ (1 : ℝ) := mul_le_mul_of_nonneg_left
          (Real.rpow_le_rpow_of_exponent_le (by linarith) hp1) hpower
      _ = a ^ p * (1 + ε) := by rw [Real.rpow_one]
  have hdown : a ^ p * (1 - ε) ≤ b ^ p := by
    calc a ^ p * (1 - ε) = a ^ p * (1 - ε) ^ (1 : ℝ) := by rw [Real.rpow_one]
      _ ≤ a ^ p * (1 - ε) ^ p := mul_le_mul_of_nonneg_left
          (rpow_le_rpow_of_le (by linarith) (by linarith) hp hp1) hpower
      _ = (a * (1 - ε)) ^ p := (Real.mul_rpow ha (by linarith)).symm
      _ ≤ b ^ p := Real.rpow_le_rpow (mul_nonneg ha (by linarith)) (by linarith) hp.le
  rw [abs_le]
  constructor <;> linarith

theorem abs_sub_le_of_steps {c d δ η : ℝ} (hab : |a - b| ≤ ε) (hbc : |b - c| ≤ δ)
    (hcd : |c - d| ≤ η) : |a - d| ≤ ε + δ + η := by
  have hfirst := abs_sub_le a b d
  have hsecond := abs_sub_le b c d
  linarith

end Powers

/-! ### The two exponents -/

theorem value_gamma : gamma.value ℝ = 0x1199999999999A / 2 ^ 51 := by
  have hratio : gamma = ofRatio false 0x1199999999999A (2 ^ 51) := by decide +kernel
  rw [hratio]
  exact (value_ofRatio (by decide) (by decide)).2.trans (by norm_num)

theorem value_inverseGamma : inverseGamma.value ℝ = 0x1D1745D1745D17 / 2 ^ 54 := by
  have hratio : inverseGamma = ofRatio false 0x1D1745D1745D17 (2 ^ 54) := by decide +kernel
  rw [hratio]
  exact (value_ofRatio (by decide) (by decide)).2.trans (by norm_num)

theorem gamma_bounds : 2 ≤ gamma.value ℝ ∧ gamma.value ℝ ≤ 3 := by
  rw [value_gamma]
  norm_num

theorem inverseGamma_bounds : 2 / 5 ≤ inverseGamma.value ℝ ∧ inverseGamma.value ℝ ≤ 1 := by
  rw [value_inverseGamma]
  norm_num

/-- The exponents are inverse to each other up to their rounding. -/
theorem abs_value_gamma_mul_inverseGamma_sub_one_le :
    |gamma.value ℝ * inverseGamma.value ℝ - 1| ≤ 1 / 2 ^ 53 := by
  rw [value_gamma, value_inverseGamma, abs_le]
  norm_num

/-- Raised to both exponents, a number is moved by little. -/
theorem abs_rpow_mul_sub_self_le {a : ℝ} (ha : 0 ≤ a) (hone : a ≤ 1) :
    |a ^ (gamma.value ℝ * inverseGamma.value ℝ) - a| ≤ 1 / 2 ^ 52 := by
  have hproduct := abs_value_gamma_mul_inverseGamma_sub_one_le
  have hhalf : 1 / 2 ≤ gamma.value ℝ * inverseGamma.value ℝ := by
    have hlow := (abs_le.mp hproduct).1
    norm_num at hlow
    linarith
  refine (abs_rpow_sub_self_le ha hone hhalf).trans ?_
  norm_num at hproduct ⊢
  linarith

/-! ### Both ways round -/

variable {x : Binary64}

theorem inverseGamma_pos : 0 < inverseGamma.value ℝ := by
  have hlow := inverseGamma_bounds.1
  linarith

theorem rounds_encode (h : inRange x = true) :
    Rounds (x.value ℝ ^ inverseGamma.value ℝ) (encode x) :=
  rounds_pow_of_inRange h inverseGamma_pos

theorem inRange_encode (h : inRange x = true) : inRange (encode x) = true :=
  inRange_pow h inverseGamma_pos

/-- Encoding first, its rounding is made at most three times as large. -/
theorem abs_value_intensity_encode_sub_le (h : inRange x = true) :
    |(intensity (encode x)).value ℝ - x.value ℝ| ≤ 1 / 2 ^ 50 := by
  obtain ⟨-, hzero, hone⟩ := (inRange_iff ℝ).mp h
  have hencode := inRange_encode h
  obtain ⟨hfinite, hzero', hone'⟩ := (inRange_iff ℝ).mp hencode
  obtain ⟨hfinite', -, -⟩ := (inRange_iff ℝ).mp (inRange_intensity hencode)
  obtain ⟨hlow, hhigh⟩ := gamma_bounds
  have hroot : 0 ≤ x.value ℝ ^ inverseGamma.value ℝ := Real.rpow_nonneg hzero _
  have hroot1 : x.value ℝ ^ inverseGamma.value ℝ ≤ 1 :=
    Real.rpow_le_one hzero hone inverseGamma_pos.le
  have hpower : 0 ≤ (encode x).value ℝ ^ gamma.value ℝ := Real.rpow_nonneg hzero' _
  have hpower1 : (encode x).value ℝ ^ gamma.value ℝ ≤ 1 :=
    Real.rpow_le_one hzero' hone' gamma_pos.le
  have hfirst := (rounds_encode h).abs_value_sub_le_of_le_one hfinite
    (by rwa [abs_of_nonneg hroot])
  have hsecond := (rounds_intensity hencode).abs_value_sub_le_of_le_one hfinite'
    (by rwa [abs_of_nonneg hpower])
  have hpowers := abs_rpow_sub_rpow_le hzero' hone' hroot hroot1 (by linarith) hhigh
  have hexact := abs_rpow_mul_sub_self_le hzero hone
  rw [mul_comm, Real.rpow_mul hzero] at hexact
  calc |(intensity (encode x)).value ℝ - x.value ℝ| ≤ 1 / 2 ^ 54 + 3 * (1 / 2 ^ 54) + 1 / 2 ^ 52 :=
        abs_sub_le_of_steps hsecond (hpowers.trans (by linarith)) hexact
    _ ≤ 1 / 2 ^ 50 := by norm_num

/-- Decoding first, a number that is not tiny has a power that is not subnormal. Its rounding moves
it by a small part of itself, and encoding makes that part no larger. -/
theorem abs_value_encode_intensity_sub_le_of_le (h : inRange x = true)
    (hlow : 1 / 2 ^ 40 ≤ x.value ℝ) :
    |(encode (intensity x)).value ℝ - x.value ℝ| ≤ 1 / 2 ^ 50 := by
  obtain ⟨-, hzero, hone⟩ := (inRange_iff ℝ).mp h
  have hintensity := inRange_intensity h
  obtain ⟨hfinite, hzero', hone'⟩ := (inRange_iff ℝ).mp hintensity
  obtain ⟨hfinite', -, -⟩ := (inRange_iff ℝ).mp (inRange_encode hintensity)
  have hpower : 0 ≤ x.value ℝ ^ gamma.value ℝ := Real.rpow_nonneg hzero _
  have hpower1 : x.value ℝ ^ gamma.value ℝ ≤ 1 := Real.rpow_le_one hzero hone gamma_pos.le
  have hroot : 0 ≤ (intensity x).value ℝ ^ inverseGamma.value ℝ := Real.rpow_nonneg hzero' _
  have hroot1 : (intensity x).value ℝ ^ inverseGamma.value ℝ ≤ 1 :=
    Real.rpow_le_one hzero' hone' inverseGamma_pos.le
  have hnormal : 1 < x.value ℝ ^ gamma.value ℝ * 2 ^ 1022 := by
    have hcube : x.value ℝ ^ (3 : ℝ) ≤ x.value ℝ ^ gamma.value ℝ :=
      rpow_le_rpow_of_le hzero hone gamma_pos gamma_bounds.2
    have hlowCube : (1 / 2 ^ 40 : ℝ) ^ (3 : ℝ) ≤ x.value ℝ ^ (3 : ℝ) :=
      Real.rpow_le_rpow (by positivity) hlow (by norm_num)
    calc (1 : ℝ) < (1 / 2 ^ 40) ^ (3 : ℝ) * 2 ^ 1022 := by
          rw [show (3 : ℝ) = (3 : ℕ) by norm_num, Real.rpow_natCast, div_pow, one_pow, ← pow_mul,
            one_div_mul_eq_div, one_lt_div (by positivity)]
          exact pow_lt_pow_right₀ one_lt_two (by decide)
      _ ≤ x.value ℝ ^ gamma.value ℝ * 2 ^ 1022 :=
          mul_le_mul_of_nonneg_right (hlowCube.trans hcube) (by positivity)
  have hfirst := (rounds_intensity h).abs_value_sub_le_mul hfinite
    (by rwa [abs_of_nonneg hpower]) (by rwa [abs_of_nonneg hpower])
  rw [abs_of_nonneg hpower, div_eq_mul_one_div] at hfirst
  have hroots := abs_root_sub_root_le hpower (by positivity) (by norm_num) hfirst inverseGamma_pos
    inverseGamma_bounds.2
  have hsecond := (rounds_encode hintensity).abs_value_sub_le_of_le_one hfinite'
    (by rwa [abs_of_nonneg hroot])
  have hexact := abs_rpow_mul_sub_self_le hzero hone
  have hback : (x.value ℝ ^ gamma.value ℝ) ^ inverseGamma.value ℝ ≤ 1 :=
    Real.rpow_le_one hpower hpower1 inverseGamma_pos.le
  rw [Real.rpow_mul hzero] at hexact
  calc |(encode (intensity x)).value ℝ - x.value ℝ| ≤ 1 / 2 ^ 54 + 1 * (1 / 2 ^ 53) + 1 / 2 ^ 52 :=
        abs_sub_le_of_steps hsecond
          (hroots.trans (mul_le_mul_of_nonneg_right hback (by positivity))) hexact
    _ ≤ 1 / 2 ^ 50 := by norm_num

/-- A tiny number has a tinier power, if that does not go to zero, and its root is tiny again. -/
theorem value_encode_intensity_le_of_le (h : inRange x = true) (hhigh : x.value ℝ ≤ 1 / 2 ^ 40) :
    (encode (intensity x)).value ℝ ≤ 1 / 2 ^ 32 := by
  obtain ⟨-, hzero, hone⟩ := (inRange_iff ℝ).mp h
  have hintensity := inRange_intensity h
  obtain ⟨-, hzero', -⟩ := (inRange_iff ℝ).mp hintensity
  obtain ⟨square, hsquare, hsquareValue⟩ :=
    exists_value_eq (K := ℝ) (n := 1) (k := 80) (by decide) (by decide)
  obtain ⟨root, hroot, hrootValue⟩ :=
    exists_value_eq (K := ℝ) (n := 1) (k := 32) (by decide) (by decide)
  rw [Nat.cast_one] at hsquareValue hrootValue
  have hpower : x.value ℝ ^ gamma.value ℝ ≤ 1 / 2 ^ 80 := by
    calc x.value ℝ ^ gamma.value ℝ ≤ x.value ℝ ^ (2 : ℝ) :=
          rpow_le_rpow_of_le hzero hone two_pos gamma_bounds.1
      _ ≤ (1 / 2 ^ 40) ^ (2 : ℝ) := Real.rpow_le_rpow hzero hhigh two_pos.le
      _ = 1 / 2 ^ 80 := by
          rw [Real.rpow_two]
          norm_num
  have hintensityLe := (rounds_intensity h).value_le hsquare (by rwa [hsquareValue])
  rw [hsquareValue] at hintensityLe
  have hrootLe : (intensity x).value ℝ ^ inverseGamma.value ℝ ≤ 1 / 2 ^ 32 := by
    calc (intensity x).value ℝ ^ inverseGamma.value ℝ
        ≤ (1 / 2 ^ 80) ^ inverseGamma.value ℝ :=
          Real.rpow_le_rpow hzero' hintensityLe inverseGamma_pos.le
      _ ≤ (1 / 2 ^ 80) ^ (2 / 5 : ℝ) :=
          rpow_le_rpow_of_le (by positivity) (by norm_num) (by norm_num) inverseGamma_bounds.1
      _ = ((1 / 2 ^ 16) ^ (5 : ℝ)) ^ (2 / 5 : ℝ) := by
          rw [show (5 : ℝ) = (5 : ℕ) by norm_num, Real.rpow_natCast]
          norm_num
      _ = 1 / 2 ^ 32 := by
          rw [← Real.rpow_mul (by positivity), show (5 * (2 / 5) : ℝ) = 2 by norm_num,
            Real.rpow_two]
          norm_num
  have hencodeLe := (rounds_encode hintensity).value_le hroot (by rwa [hrootValue])
  rwa [hrootValue] at hencodeLe

theorem abs_value_encode_intensity_sub_le (h : inRange x = true) :
    |(encode (intensity x)).value ℝ - x.value ℝ| ≤ 1 / 2 ^ 32 := by
  obtain ⟨-, hzero, -⟩ := (inRange_iff ℝ).mp h
  obtain ⟨-, hzero', -⟩ := (inRange_iff ℝ).mp (inRange_encode (inRange_intensity h))
  rcases le_total (1 / 2 ^ 40) (x.value ℝ) with hlow | hhigh
  · exact (abs_value_encode_intensity_sub_le_of_le h hlow).trans (by norm_num)
  · have htiny := value_encode_intensity_le_of_le h hhigh
    norm_num at hhigh htiny ⊢
    rw [abs_le]
    constructor <;> linarith

/-- Every number between 0 and 1 is decoded, and encoding the intensity brings it back to within
`1 / 10 ^ 9`. Encoding it does not leave the range, so that can be decoded, and decoding brings the
number back to within as much. -/
theorem curve_inverse (h : inRange x = true) :
    (∃ y, decode x = .ok y ∧ (encode y).IsFinite ∧
      |(encode y).value ℝ - x.value ℝ| ≤ 1 / 10 ^ 9) ∧
    inRange (encode x) = true ∧
    ∃ z, decode (encode x) = .ok z ∧ z.IsFinite ∧ |z.value ℝ - x.value ℝ| ≤ 1 / 10 ^ 9 := by
  have hencode := inRange_encode h
  have hback := inRange_encode (inRange_intensity h)
  have hforth := inRange_intensity hencode
  refine ⟨⟨intensity x, decode_eq_ok_iff.mpr ⟨h, rfl⟩, ((inRange_iff ℝ).mp hback).1, ?_⟩, hencode,
    intensity (encode x), decode_eq_ok_iff.mpr ⟨hencode, rfl⟩, ((inRange_iff ℝ).mp hforth).1, ?_⟩
  · exact (abs_value_encode_intensity_sub_le h).trans (by norm_num)
  · exact (abs_value_intensity_encode_sub_le h).trans (by norm_num)

/-- The least positive number has a power that goes to zero. -/
theorem curve_inverse_of_least :
    inRange (ofBits 1) = true ∧ decode (ofBits 1) = .ok zero ∧
      |(encode zero).value ℝ - (ofBits 1).value ℝ| ≤ 1 / 10 ^ 9 ∧
      inRange (encode (ofBits 1)) = true ∧
      ∃ z, decode (encode (ofBits 1)) = .ok z ∧
        |z.value ℝ - (ofBits 1).value ℝ| ≤ 1 / 10 ^ 9 := by
  have hrange : inRange (ofBits 1) = true := by decide +kernel
  have hzero : decode (ofBits 1) = .ok zero := by decide +kernel
  obtain ⟨⟨y, hy, -, hback⟩, hencode, z, hz, -, hforth⟩ := curve_inverse hrange
  obtain rfl : zero = y := Except.ok.inj (hzero.symm.trans hy)
  exact ⟨hrange, hzero, hback, hencode, z, hz, hforth⟩

end LinearLight
