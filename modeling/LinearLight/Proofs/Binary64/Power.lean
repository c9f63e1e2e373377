import LinearLight.Proofs.Binary64.Arithmetic
import LinearLight.Proofs.Binary64.Bracket

/-!
# Powers are correctly rounded

A power is found either by a bracket whose ends agree, or, when no bracket decides, by a search
among the few magnitudes that the last bracket leaves, which compares whole powers. Both give the
magnitude to which the real power rounds.

## Main definitions

- `Exponent.value`: the number that an exponent is

## Main statements

- `Binary64.roundsPast_iff`: the comparison of whole powers
- `Binary64.powMagnitude_eq`: both ways give the magnitude to which the power rounds
- `Binary64.rounds_pow`
-/

namespace LinearLight

/-- The number that an exponent is. -/
def Exponent.value (K : Type*) [DivisionRing K] (y : Exponent) : K :=
  y.numerator / (1 <<< y.halvings : Nat)

namespace Binary64

theorem two_pow_eq_one_shiftLeft (K : Type*) [DivisionRing K] (k : Nat) :
    (2 : K) ^ k = (1 <<< k : Nat) := by
  rw [Nat.one_shiftLeft]
  push_cast
  rfl

theorem two_pow_1074 (K : Type*) [DivisionRing K] : (2 : K) ^ 1074 = unitsInOne :=
  two_pow_eq_one_shiftLeft K 1074

theorem value_exponent (K : Type*) [DivisionRing K] (y : Exponent) :
    y.value K = y.numerator / 2 ^ y.halvings := by
  rw [Exponent.value, two_pow_eq_one_shiftLeft]

theorem two_zpow_neg_1074 : (2 : ℝ) ^ (-1074 : ℤ) = (unitsInOne : ℝ)⁻¹ := by
  rw [zpow_neg, ← two_pow_1074]
  exact congrArg _ (zpow_natCast 2 1074)

/-! ### Operands -/

theorem unitsOf_of_field_zero {m : Nat} (h : m / 0x10000000000000 = 0) : unitsOf m = m :=
  if_pos (by omega)

theorem unitsOf_of_field_pos {m : Nat} (h : m / 0x10000000000000 ≠ 0) : unitsOf m =
    (0x10000000000000 + m % 0x10000000000000) * 2 ^ (m / 0x10000000000000 - 1) := by
  rw [unitsOf, if_neg (by omega), Nat.shiftLeft_eq]

/-- The exact value of a double is its own bracket. -/
theorem encloses_ofBinary64 (x : Binary64) :
    (Bracket.ofBinary64 x).Encloses (x.units / unitsInOne) := by
  unfold Bracket.ofBinary64
  dsimp only
  split
  · next hfield =>
    have hvalue : (x.units / unitsInOne : ℝ) = x.magnitude * 2 ^ (-1074 : ℤ) := by
      rw [units, unitsOf_of_field_zero hfield, two_zpow_neg_1074, div_eq_mul_inv]
    rw [hvalue]
    exact Bracket.encloses_exact _ _
  · next hfield =>
    have hscale : ((x.magnitude / 0x10000000000000 : Nat) : ℤ) - 1075 =
        ((x.magnitude / 0x10000000000000 - 1 : Nat) : ℤ) + -1074 := by
      omega
    have hvalue : (x.units / unitsInOne : ℝ) =
        (0x10000000000000 + x.magnitude % 0x10000000000000 : Nat) *
          2 ^ (((x.magnitude / 0x10000000000000 : Nat) : ℤ) - 1075) := by
      rw [units, unitsOf_of_field_pos hfield, hscale, zpow_add₀ two_ne_zero, zpow_natCast,
        two_zpow_neg_1074, ← mul_assoc, div_eq_mul_inv]
      push_cast
      rfl
    rw [hvalue]
    exact Bracket.encloses_exact _ _

/-- An exponent is the double it is made of. -/
theorem value_ofBinary64 (K : Type*) [Field K] [CharZero K] (y : Binary64) :
    (Exponent.ofBinary64 y).value K = y.units / unitsInOne := by
  unfold Exponent.ofBinary64
  dsimp only
  split
  · next hfield =>
    rw [value_exponent, units, unitsOf_of_field_zero hfield, two_pow_1074]
  · next hfield =>
    have hexponent : y.magnitude / 0x10000000000000 - 1075 + 1074 =
        y.magnitude / 0x10000000000000 - 1 + (1075 - y.magnitude / 0x10000000000000) := by
      omega
    rw [value_exponent, units, unitsOf_of_field_pos hfield, ← two_pow_1074,
      div_eq_div_iff (pow_ne_zero _ two_ne_zero) (pow_ne_zero _ two_ne_zero), Nat.shiftLeft_eq]
    push_cast
    rw [mul_assoc, ← pow_add, hexponent, pow_add, mul_assoc]

/-! ### The comparison of whole powers -/

theorem shiftLeft_mul (n c k : Nat) : n <<< (c * k) = n * (1 <<< c) ^ k := by
  rw [Nat.shiftLeft_eq, Nat.one_shiftLeft, Nat.pow_mul]

theorem shiftLeft_1074_mul (n k : Nat) : n <<< (1074 * k) = n * unitsInOne ^ k :=
  shiftLeft_mul n 1074 k

theorem shiftLeft_1075_shiftLeft (n k : Nat) :
    n <<< (1075 <<< k) = n * (2 * unitsInOne) ^ (2 ^ k) := by
  have htwo : 1 <<< 1075 = 2 * unitsInOne := by decide +kernel
  rw [Nat.shiftLeft_eq 1075, shiftLeft_mul, htwo]

theorem roundsPast_eq_true_iff (x : Binary64) (y : Exponent) (m : Nat) :
    roundsPast x y m = true ↔
      midpoint m ^ 2 ^ y.halvings * unitsInOne ^ y.numerator <
          x.units ^ y.numerator * (2 * unitsInOne) ^ 2 ^ y.halvings ∨
        midpoint m ^ 2 ^ y.halvings * unitsInOne ^ y.numerator =
          x.units ^ y.numerator * (2 * unitsInOne) ^ 2 ^ y.halvings ∧ m % 2 = 1 := by
  simp only [roundsPast, shiftLeft_1074_mul, shiftLeft_1075_shiftLeft, Nat.one_shiftLeft,
    Nat.pow_eq, midpoint, Bool.or_eq_true, Bool.and_eq_true, decide_eq_true_eq]

/-- The real power, brought to the whole power that halving its exponent undoes. -/
theorem two_mul_power_pow (x : Binary64) (y : Exponent) :
    (2 * ((x.units / unitsInOne : ℝ) ^ y.value ℝ * unitsInOne)) ^ 2 ^ y.halvings *
        (unitsInOne : ℝ) ^ y.numerator =
      (x.units : ℝ) ^ y.numerator * (2 * unitsInOne : ℝ) ^ 2 ^ y.halvings := by
  have hbase : (0 : ℝ) ≤ x.units / unitsInOne := div_nonneg (Nat.cast_nonneg _) (Nat.cast_nonneg _)
  have hunits : (unitsInOne : ℝ) ≠ 0 := (unitsInOne_cast_pos ℝ).ne'
  have hwhole : ((x.units / unitsInOne : ℝ) ^ y.value ℝ) ^ 2 ^ y.halvings =
      (x.units / unitsInOne) ^ y.numerator := by
    rw [← Real.rpow_natCast, ← Real.rpow_mul hbase, ← Real.rpow_natCast, value_exponent]
    congr 1
    push_cast
    exact div_mul_cancel₀ _ (by positivity)
  have hbasePow : (x.units / unitsInOne : ℝ) ^ y.numerator * (unitsInOne : ℝ) ^ y.numerator =
      (x.units : ℝ) ^ y.numerator := by
    rw [← mul_pow, div_mul_cancel₀ _ hunits]
  rw [mul_left_comm, mul_pow, hwhole, mul_right_comm, hbasePow]

/-- The whole powers are compared as the power and the midpoint are. -/
theorem roundsPast_iff (x : Binary64) (y : Exponent) (m : Nat) :
    roundsPast x y m = true ↔ Past ((x.units / unitsInOne : ℝ) ^ y.value ℝ * unitsInOne) m := by
  have hwhole := two_mul_power_pow x y
  have hpower : (0 : ℝ) ≤ 2 * ((x.units / unitsInOne : ℝ) ^ y.value ℝ * unitsInOne) := by positivity
  have hunits : (0 : ℝ) < (unitsInOne : ℝ) ^ y.numerator := pow_pos (unitsInOne_cast_pos ℝ) _
  have hexponent : 2 ^ y.halvings ≠ 0 := (Nat.two_pow_pos _).ne'
  rw [roundsPast_eq_true_iff, Past]
  generalize 2 * ((x.units / unitsInOne : ℝ) ^ y.value ℝ * unitsInOne) = t at hwhole hpower ⊢
  have hlt : (midpoint m : ℝ) < t ↔ midpoint m ^ 2 ^ y.halvings * unitsInOne ^ y.numerator <
      x.units ^ y.numerator * (2 * unitsInOne) ^ 2 ^ y.halvings := by
    rw [← pow_lt_pow_iff_left₀ (Nat.cast_nonneg _) hpower hexponent, ← mul_lt_mul_iff_left₀ hunits,
      hwhole]
    norm_cast
  have heq : (midpoint m : ℝ) = t ↔ midpoint m ^ 2 ^ y.halvings * unitsInOne ^ y.numerator =
      x.units ^ y.numerator * (2 * unitsInOne) ^ 2 ^ y.halvings := by
    rw [← pow_left_inj₀ (Nat.cast_nonneg _) hpower hexponent, ← mul_left_inj' hunits.ne', hwhole]
    norm_cast
  rw [hlt, heq]

/-! ### Both ways -/

/-- The search ends at the first magnitude that is not passed, or with its range. -/
theorem firstNotPast_eq {x : Binary64} {y : Exponent} {n : Nat}
    (h : ∀ k, roundsPast x y k = true ↔ k < n) (count magnitude : Nat) :
    firstNotPast x y count magnitude = max magnitude (min n (magnitude + count)) := by
  induction count generalizing magnitude with
  | zero =>
    rw [firstNotPast]
    omega
  | succ count ih =>
    rw [firstNotPast]
    split
    · next hpast =>
      rw [ih]
      have := (h magnitude).mp hpast
      omega
    · next hpast =>
      have := mt (h magnitude).mpr hpast
      omega

/-- The magnitude found for a power is the one to which it rounds. -/
theorem powMagnitude_eq {x : Binary64} {y : Exponent} {n : Nat} (hx : 0 < x.units)
    (hn : RoundsTo ((x.units / unitsInOne : ℝ) ^ y.value ℝ * unitsInOne) n) :
    powMagnitude x y = min n infinite := by
  have hpos : (0 : ℝ) < x.units / unitsInOne :=
    div_pos (Nat.cast_pos.mpr hx) (unitsInOne_cast_pos ℝ)
  have hencloses (bits : Nat) : ((Bracket.ofBinary64 x).power bits y).Encloses
      ((x.units / unitsInOne : ℝ) ^ y.value ℝ) := by
    rw [value_exponent]
    exact (encloses_ofBinary64 x).power hpos bits y
  unfold powMagnitude
  dsimp only
  split
  · next m hfound =>
    obtain ⟨bits, -, hsettled⟩ := List.exists_of_findSome?_eq_some hfound
    exact (hencloses bits).eq_of_settled? hn hsettled
  · obtain ⟨hlow, hhigh⟩ := (hencloses 1024).nearestDyadic_le hn
    have htop : Bracket.nearestDyadic ((Bracket.ofBinary64 x).power 1024 y).upper
        ((Bracket.ofBinary64 x).power 1024 y).scale ≤ infinite := Nat.min_le_right _ _
    rw [firstNotPast_eq fun k => (roundsPast_iff x y k).trans hn.past_iff]
    omega

/-- Powers of positive doubles are correctly rounded. -/
theorem rounds_pow {x : Binary64} (hx : x.IsFinite) (hpos : 0 < x.value ℝ) (y : Exponent) :
    Rounds (x.value ℝ ^ y.value ℝ) (x.pow y) := by
  have hsign : x.negative = false := negative_of_value_pos ℝ hpos
  have hvalue : x.value ℝ = x.units / unitsInOne := value_of_not_negative ℝ hsign
  have hunits : 0 < x.units := by
    rw [hvalue, div_pos_iff_of_pos_right (unitsInOne_cast_pos ℝ), Nat.cast_pos] at hpos
    exact hpos
  have hzero : x.isZero = false := decide_eq_false (mt (value_eq_zero_iff ℝ).mpr hpos.ne')
  have hpower : 0 < x.value ℝ ^ y.value ℝ := Real.rpow_pos_of_pos hpos _
  obtain ⟨n, hn⟩ := exists_roundsTo (mul_nonneg hpower.le (unitsInOne_cast_pos ℝ).le)
  have hpow : x.pow y = ofMagnitude false (powMagnitude x y) := by
    simp [pow, hx.isNaN_eq_false, hx.isInfinite_eq_false, hzero, hsign]
  rw [hpow]
  refine ⟨⟨n, ?_, ?_⟩, fun h => absurd h hpower.asymm, fun _ => rfl⟩
  · rwa [abs_of_pos hpower]
  · have hmagnitude : powMagnitude x y = min n infinite := powMagnitude_eq hunits (hvalue ▸ hn)
    change min (powMagnitude x y) infinite = _
    omega

end Binary64

end LinearLight
