/-!
# Square roots of natural numbers

The whole part of a square root, found digit by digit in base 4: the root of `n / 4` is, doubled,
the root of `n` or one less.

## Main definitions

- `floorSqrt`: the largest number whose square is at most `n`

## Main results

- `floorSqrt_sq_le`, `lt_succ_floorSqrt_sq`: the two bounds that determine it
-/

namespace LinearLight

/-- The root of a number with at most `digits` digits in base 4. -/
def sqrtDigits : (digits : Nat) → (n : Nat) → Nat
  | 0, _ => 0
  | digits + 1, n =>
    let root := 2 * sqrtDigits digits (n / 4)
    if (root + 1) * (root + 1) ≤ n then root + 1 else root

/-- The largest number whose square is at most `n`. -/
def floorSqrt (n : Nat) : Nat := sqrtDigits (n.log2 / 2 + 1) n

theorem sqrtDigits_sq_le (digits n : Nat) : sqrtDigits digits n * sqrtDigits digits n ≤ n := by
  induction digits generalizing n with
  | zero => simp [sqrtDigits]
  | succ digits ih =>
    have h := ih (n / 4)
    simp only [sqrtDigits]
    generalize sqrtDigits digits (n / 4) = r at h ⊢
    split
    · assumption
    · have hr : 2 * r * (2 * r) = 4 * (r * r) := by
        rw [Nat.mul_mul_mul_comm]
      omega

theorem lt_succ_sqrtDigits_sq (digits n : Nat) (h : n < 1 <<< (2 * digits)) :
    n < (sqrtDigits digits n + 1) * (sqrtDigits digits n + 1) := by
  induction digits generalizing n with
  | zero =>
    have hn : n < 1 := h
    simp only [sqrtDigits]
    omega
  | succ digits ih =>
    have hn : n / 4 < 1 <<< (2 * digits) := by
      rw [show 2 * (digits + 1) = 2 * digits + 1 + 1 from rfl, Nat.shiftLeft_succ,
        Nat.shiftLeft_succ] at h
      omega
    have hi := ih (n / 4) hn
    simp only [sqrtDigits]
    generalize sqrtDigits digits (n / 4) = r at hi ⊢
    split
    · have hr : (2 * r + 1 + 1) * (2 * r + 1 + 1) = 4 * ((r + 1) * (r + 1)) := by
        have : 2 * r + 1 + 1 = 2 * (r + 1) := by omega
        rw [this, Nat.mul_mul_mul_comm]
      omega
    · omega

theorem lt_shiftLeft_log2 (n : Nat) : n < 1 <<< (2 * (n.log2 / 2 + 1)) := by
  rw [Nat.one_shiftLeft]
  exact Nat.lt_of_lt_of_le Nat.lt_log2_self (Nat.pow_le_pow_right (by decide) (by omega))

theorem floorSqrt_sq_le (n : Nat) : floorSqrt n * floorSqrt n ≤ n := sqrtDigits_sq_le _ n

theorem lt_succ_floorSqrt_sq (n : Nat) : n < (floorSqrt n + 1) * (floorSqrt n + 1) :=
  lt_succ_sqrtDigits_sq _ n (lt_shiftLeft_log2 n)

end LinearLight
