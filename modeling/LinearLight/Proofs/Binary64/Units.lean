import Mathlib.Order.Monotone.Basic
import Mathlib.Tactic.Ring
import LinearLight.Binary64.Basic

/-!
# The values of magnitudes

From one magnitude to the next, the value grows by a power of two that the exponent field gives. So
values grow strictly with magnitudes, and every number of at most 53 bits times a power of two is
one of them.

## Main definitions

- `Binary64.unitsInOne`: the units that make one

## Main statements

- `Binary64.unitsOf_succ`: the step from one magnitude to the next
- `Binary64.unitsOf_strictMono`
- `Binary64.exists_unitsOf_eq`: the numbers that are values of magnitudes
-/

namespace LinearLight.Binary64

/-- The units that make one. -/
def unitsInOne : Nat := 1 <<< 1074

theorem shiftLeft_eq_mul_one_shiftLeft (n k : Nat) : n <<< k = n * 1 <<< k := by
  rw [Nat.shiftLeft_eq, Nat.one_shiftLeft]

theorem shiftLeft_1074 (n : Nat) : n <<< 1074 = n * unitsInOne :=
  shiftLeft_eq_mul_one_shiftLeft n 1074

theorem shiftRight_eq_div_one_shiftLeft (n k : Nat) : n >>> k = n / 1 <<< k := by
  rw [Nat.shiftRight_eq_div_pow, Nat.one_shiftLeft]

theorem shiftRight_1074 (n : Nat) : n >>> 1074 = n / unitsInOne :=
  shiftRight_eq_div_one_shiftLeft n 1074

theorem one_shiftLeft_pos (k : Nat) : 0 < 1 <<< k := by
  rw [Nat.one_shiftLeft]
  exact Nat.two_pow_pos k

theorem unitsInOne_pos : 0 < unitsInOne := one_shiftLeft_pos 1074

/-- The units in one are a power of two, so they can be split. -/
theorem exists_unitsInOne_eq {k : Nat} (hk : k ≤ 1074) :
    ∃ shift, unitsInOne = 2 ^ k * 2 ^ shift := by
  obtain ⟨shift, hshift⟩ := Nat.exists_eq_add_of_le hk
  exact ⟨shift, by rw [unitsInOne, Nat.one_shiftLeft, hshift, Nat.pow_add]⟩

/-- Where a step is worth `2 ^ shift`, the value is the count of steps times that. The count may be
the one that the next exponent begins with. -/
theorem unitsOf_add {shift k : Nat} (hk : k ≤ 0x20000000000000)
    (hshift : shift = 0 ∨ 0x10000000000000 ≤ k) :
    unitsOf (shift * 0x10000000000000 + k) = k * 2 ^ shift := by
  by_cases hlow : k < 0x10000000000000
  · obtain rfl : shift = 0 := by omega
    rw [unitsOf, if_pos (by omega)]
    omega
  · rw [unitsOf, if_neg (by omega), Nat.shiftLeft_eq]
    rcases Nat.lt_or_ge k 0x20000000000000 with htop | htop
    · have hfield : (shift * 0x10000000000000 + k) / 0x10000000000000 - 1 = shift := by omega
      have hcount : 0x10000000000000 + (shift * 0x10000000000000 + k) % 0x10000000000000 = k := by
        omega
      rw [hfield, hcount]
    · have hfield : (shift * 0x10000000000000 + k) / 0x10000000000000 - 1 = shift + 1 := by omega
      have hcount : 0x10000000000000 + (shift * 0x10000000000000 + k) % 0x10000000000000 =
          0x10000000000000 := by
        omega
      obtain rfl : k = 0x20000000000000 := by omega
      rw [hfield, hcount, Nat.pow_succ]
      ring

/-- A magnitude by the worth of its steps and their count. -/
theorem exists_eq_add (m : Nat) : ∃ k, k < 0x20000000000000 ∧
    m = (m / 0x10000000000000 - 1) * 0x10000000000000 + k ∧
    (m / 0x10000000000000 - 1 = 0 ∨ 0x10000000000000 ≤ k) :=
  ⟨m - (m / 0x10000000000000 - 1) * 0x10000000000000, by omega, by omega, by omega⟩

/-- The step from one magnitude to the next. -/
theorem unitsOf_succ (m : Nat) : unitsOf (m + 1) = unitsOf m + 2 ^ (m / 0x10000000000000 - 1) := by
  obtain ⟨k, hk, hm, hshift⟩ := exists_eq_add m
  generalize m / 0x10000000000000 - 1 = shift at hm hshift ⊢
  subst hm
  have hnext : k + 1 ≤ 0x20000000000000 := hk
  rw [unitsOf_add (Nat.le_of_lt hk) hshift, Nat.add_assoc, unitsOf_add hnext (by omega)]
  ring

theorem unitsOf_strictMono : StrictMono unitsOf :=
  strictMono_nat_of_lt_succ fun m => by
    rw [unitsOf_succ]
    exact Nat.lt_add_of_pos_right (Nat.two_pow_pos _)

theorem unitsOf_zero : unitsOf 0 = 0 := rfl

/-- Below the exponent with which steps grow beyond `2 ^ shift`, no step is larger. -/
theorem unitsOf_succ_le {m shift : Nat} (h : m < (shift + 2) * 0x10000000000000) :
    unitsOf (m + 1) ≤ unitsOf m + 2 ^ shift := by
  rw [unitsOf_succ]
  exact Nat.add_le_add_left (Nat.pow_le_pow_right (by decide) (by omega)) _

/-- The first magnitude of an exponent. -/
theorem unitsOf_first (shift : Nat) :
    unitsOf ((shift + 1) * 0x10000000000000) = 0x10000000000000 * 2 ^ shift := by
  have hm : (shift + 1) * 0x10000000000000 = shift * 0x10000000000000 + 0x10000000000000 := by
    omega
  rw [hm]
  exact unitsOf_add (by decide) (.inr (Nat.le_refl _))

/-- A number of at most 53 bits, times a power of two, is the value of a magnitude. -/
theorem exists_unitsOf_eq {k : Nat} (hk : k < 0x20000000000000) (shift : Nat) :
    ∃ m, unitsOf m = k * 2 ^ shift := by
  induction shift generalizing k with
  | zero => exact ⟨k, by simpa using unitsOf_add (Nat.le_of_lt hk) (.inl rfl)⟩
  | succ shift ih =>
    by_cases hlow : k < 0x10000000000000
    -- the number does not fill its bits, so it can take over a factor of two
    · obtain ⟨m, hm⟩ := ih (show 2 * k < 0x20000000000000 by omega)
      exact ⟨m, by rw [hm, Nat.pow_succ]; ring⟩
    · exact ⟨_, unitsOf_add (Nat.le_of_lt hk) (.inr (Nat.le_of_not_lt hlow))⟩

end LinearLight.Binary64
