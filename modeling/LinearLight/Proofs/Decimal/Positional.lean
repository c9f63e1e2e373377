import Mathlib.Algebra.Order.Field.Power
import Mathlib.Data.List.DropRight
import Mathlib.Data.List.TakeDrop
import LinearLight.Proofs.Decimal.Digits
import LinearLight.Proofs.Decimal.Grid

/-!
# Decimals written without an exponent

A written decimal is a numeral, or a numeral, a point and more digits. Its significant digits are
those that are left without the zeros at both ends; they alone tell how long the decimal is, since
the zeros only say where they stand. What is written for a number has no more significant digits
than the coefficient has digits.

## Main definitions

- `Decimal.IsPositional`: the form of a written decimal
- `Decimal.significantDigits`: the digits of a text without the zeros at both ends

## Main statements

- `Decimal.exists_significant`: what the significant digits tell of a number
- `Decimal.valueFrom?_split`: the digits on both sides of the point
- `Decimal.isPositional_positional`, `Decimal.length_significantDigits_positional`
-/

namespace LinearLight.Decimal

variable {text whole fraction : List Char} {n : Nat} {x : Number}

/-- A numeral, and behind a point, if there is one, at least one digit. -/
inductive IsPositional : List Char → Prop
  | whole {whole : List Char} : IsNumeral whole → IsPositional whole
  | fraction {whole fraction : List Char} : IsNumeral whole → fraction ≠ [] →
      (∀ c ∈ fraction, '0' ≤ c ∧ c ≤ '9') → IsPositional (whole ++ '.' :: fraction)

def digitsIn (text : List Char) : List Char := text.filter fun c => '0' ≤ c ∧ c ≤ '9'

def isZero (c : Char) : Bool := c = '0'

/-- The digits of a text without the zeros at both ends. -/
def significantDigits (text : List Char) : List Char :=
  ((digitsIn text).dropWhile isZero).rdropWhile isZero

/-! ### Significant digits -/

theorem digitsIn_of_digits (h : ∀ c ∈ text, '0' ≤ c ∧ c ≤ '9') : digitsIn text = text :=
  List.filter_eq_self.mpr fun c hc => decide_eq_true (h c hc)

theorem digitsIn_append (first second : List Char) :
    digitsIn (first ++ second) = digitsIn first ++ digitsIn second :=
  List.filter_append first second

theorem digitsIn_point (whole fraction : List Char) :
    digitsIn (whole ++ '.' :: fraction) = digitsIn whole ++ digitsIn fraction := by
  rw [digitsIn_append]
  rfl

theorem exists_eq_replicate (zeros : List Char) (h : ∀ c ∈ zeros, isZero c = true) :
    ∃ count, zeros = List.replicate count '0' :=
  ⟨zeros.length, List.eq_replicate_iff.mpr ⟨rfl, fun c hc => of_decide_eq_true (h c hc)⟩⟩

/-- Only zeros are left out, and only at the ends. -/
theorem exists_digitsIn_eq (text : List Char) : ∃ front back, digitsIn text =
    List.replicate front '0' ++ (significantDigits text ++ List.replicate back '0') := by
  obtain ⟨front, hfront⟩ := exists_eq_replicate
    ((digitsIn text).takeWhile isZero) fun _ => List.mem_takeWhile_imp
  obtain ⟨back, hback⟩ := exists_eq_replicate
    (((digitsIn text).dropWhile isZero).rtakeWhile isZero) fun _ => List.mem_rtakeWhile_imp
  refine ⟨front, back, ?_⟩
  rw [← hfront, ← hback, significantDigits, List.rdropWhile_append_rtakeWhile,
    List.takeWhile_append_dropWhile]

/-- The number that digits stand for is one with as many places as there are significant digits,
moved by some places. -/
theorem exists_significant (h : valueFrom? 0 (digitsIn text) = some n) :
    ∃ v back, v < 10 ^ (significantDigits text).length ∧ n = v * 10 ^ back := by
  obtain ⟨front, back, hdigits⟩ := exists_digitsIn_eq text
  rw [hdigits, valueFrom?_append, valueFrom?_replicate_zero, Option.bind_some, Nat.zero_mul,
    valueFrom?_append, Option.bind_eq_some_iff] at h
  obtain ⟨v, hv, hn⟩ := h
  rw [valueFrom?_replicate_zero, Option.some.injEq] at hn
  exact ⟨v, back, by simpa using valueFrom?_lt hv, hn.symm⟩

/-- Zeros in front do not change the number. -/
theorem valueFrom?_dropWhile (h : valueFrom? 0 text = some n) :
    valueFrom? 0 (text.dropWhile isZero) = some n := by
  obtain ⟨front, hfront⟩ := exists_eq_replicate (text.takeWhile isZero)
    fun _ => List.mem_takeWhile_imp
  rw [← List.takeWhile_append_dropWhile (p := isZero) (l := text), hfront, valueFrom?_append,
    valueFrom?_replicate_zero, Option.bind_some, Nat.zero_mul] at h
  exact h

/-- Digits without zeros in front are the numeral of their number. -/
theorem dropWhile_eq_digitsOf (h : valueFrom? 0 text = some n) (hn : n ≠ 0) :
    text.dropWhile isZero = digitsOf n := by
  have hvalue := valueFrom?_dropWhile h
  have hne : text.dropWhile isZero ≠ [] := by
    intro hnil
    rw [hnil, valueFrom?, Option.some.injEq] at hvalue
    exact hn hvalue.symm
  have hdigits : ∀ c ∈ text.dropWhile isZero, '0' ≤ c ∧ c ≤ '9' :=
    exists_valueFrom?_iff.mp ⟨n, hvalue⟩
  refine (digitsOf_eq_iff.mpr ⟨⟨hne, hdigits, fun hzero => ?_⟩, ?_⟩).symm
  · have hhead := List.head_dropWhile_not isZero hne
    rw [List.head?_eq_some_head hne, Option.some.injEq] at hzero
    simp [hzero, isZero] at hhead
  · rw [valueOf?_eq_valueFrom? hne, hvalue]

/-! ### What is written -/

theorem valueFrom?_digitsOf (n : Nat) : valueFrom? 0 (digitsOf n) = some n := by
  rw [← valueOf?_eq_valueFrom? (digitsOf_ne_nil n), valueOf?_digitsOf]

/-- The places behind the point, filled up from the left. -/
def padded (places n : Nat) : List Char :=
  List.replicate (places - (digitsOf n).length) '0' ++ digitsOf n

theorem positional_natCast (c zeros : Nat) :
    positional ⟨c, zeros⟩ = digitsOf c ++ List.replicate zeros '0' := rfl

theorem positional_negSucc (c n : Nat) : positional ⟨c, Int.negSucc n⟩ =
    digitsOf (c / 10 ^ (n + 1)) ++ '.' :: padded (n + 1) (c % 10 ^ (n + 1)) := rfl

theorem exists_positional_eq (x : Number) : ∃ n rest, positional x = digitsOf n ++ rest := by
  obtain ⟨c, zeros | n⟩ := x
  · exact ⟨_, _, positional_natCast c zeros⟩
  · exact ⟨_, _, positional_negSucc c n⟩

theorem isDigit_of_mem_replicate {count : Nat} {c : Char} (h : c ∈ List.replicate count '0') :
    '0' ≤ c ∧ c ≤ '9' := by
  rw [List.eq_of_mem_replicate h]
  decide

theorem isDigit_of_mem_padded {places : Nat} {c : Char} (h : c ∈ padded places n) :
    '0' ≤ c ∧ c ≤ '9' :=
  (List.mem_append.mp h).elim isDigit_of_mem_replicate isDigit_of_mem_digitsOf

theorem length_padded {places : Nat} (hplaces : 0 < places) (h : n < 10 ^ places) :
    (padded places n).length = places := by
  have hlength : (digitsOf n).length ≤ places := by
    by_contra! hlt
    rcases Nat.eq_zero_or_pos n with rfl | hpos
    · rw [digitsOf_of_lt (by decide), List.length_singleton] at hlt
      omega
    · exact absurd (pow_le_of_lt_length hpos.ne' hlt) (Nat.not_le.mpr h)
  rw [padded, List.length_append, List.length_replicate]
  omega

theorem valueFrom?_padded (places n : Nat) : valueFrom? 0 (padded places n) = some n := by
  rw [padded, valueFrom?_append, valueFrom?_replicate_zero, Option.bind_some, Nat.zero_mul,
    valueFrom?_digitsOf]

/-- The digits on both sides of the point, read as one. -/
theorem valueFrom?_split (c n : Nat) :
    valueFrom? 0 (digitsOf (c / 10 ^ (n + 1)) ++ padded (n + 1) (c % 10 ^ (n + 1))) = some c := by
  have hmod : c % 10 ^ (n + 1) < 10 ^ (n + 1) := Nat.mod_lt _ (Nat.pow_pos (by decide))
  have hbehind := valueFrom?_add (valueFrom?_padded (n + 1) (c % 10 ^ (n + 1))) (c / 10 ^ (n + 1))
  rw [length_padded n.succ_pos hmod, Nat.add_zero, Nat.mul_comm, Nat.div_add_mod] at hbehind
  rw [valueFrom?_append, valueFrom?_digitsOf, Option.bind_some, hbehind]

theorem isNumeral_append (hn : n ≠ 0) {rest : List Char} (h : ∀ c ∈ rest, '0' ≤ c ∧ c ≤ '9') :
    IsNumeral (digitsOf n ++ rest) where
  ne_nil := List.append_ne_nil_of_left_ne_nil (digitsOf_ne_nil n) rest
  digits c hc := (List.mem_append.mp hc).elim isDigit_of_mem_digitsOf (h c)
  zero_first hzero := by
    rw [List.head?_append_of_ne_nil _ (digitsOf_ne_nil n)] at hzero
    exact absurd hzero (head?_digitsOf_ne_zero hn)

theorem isPositional_positional (hx : x.coefficient ≠ 0) : IsPositional (positional x) := by
  obtain ⟨c, zeros | n⟩ := x
  · exact .whole (isNumeral_append hx fun _ => isDigit_of_mem_replicate)
  · refine .fraction (isNumeral_digitsOf _) ?_ fun _ => isDigit_of_mem_padded
    exact List.append_ne_nil_of_right_ne_nil _ (digitsOf_ne_nil _)

theorem digitsIn_positional_natCast (c zeros : Nat) :
    digitsIn (positional ⟨c, zeros⟩) = digitsOf c ++ List.replicate zeros '0' :=
  digitsIn_of_digits fun _ hc =>
    (List.mem_append.mp hc).elim isDigit_of_mem_digitsOf isDigit_of_mem_replicate

theorem digitsIn_positional_negSucc (c n : Nat) : digitsIn (positional ⟨c, Int.negSucc n⟩) =
    digitsOf (c / 10 ^ (n + 1)) ++ padded (n + 1) (c % 10 ^ (n + 1)) := by
  rw [positional_negSucc, digitsIn_point, digitsIn_of_digits fun _ => isDigit_of_mem_digitsOf,
    digitsIn_of_digits fun _ => isDigit_of_mem_padded]

/-- What is written has no more significant digits than the coefficient has digits. -/
theorem length_significantDigits_positional (hx : x.coefficient ≠ 0) :
    (significantDigits (positional x)).length ≤ (digitsOf x.coefficient).length := by
  obtain ⟨c, zeros | n⟩ := x
  · have hfront : (digitsOf c ++ List.replicate zeros '0').dropWhile isZero =
        digitsOf c ++ List.replicate zeros '0' := by
      obtain ⟨first, rest, hdigits⟩ := List.exists_cons_of_ne_nil (digitsOf_ne_nil c)
      have hfirst : first ≠ '0' := by
        have hhead := head?_digitsOf_ne_zero hx
        rw [hdigits, List.head?_cons, ne_eq, Option.some.injEq] at hhead
        exact hhead
      rw [hdigits, List.cons_append, List.dropWhile_cons_of_neg]
      simp [isZero, hfirst]
    have hback : (digitsOf c ++ List.replicate zeros '0').rdropWhile isZero =
        (digitsOf c).rdropWhile isZero := by
      rw [List.rdropWhile, List.reverse_append, List.dropWhile_append_of_pos, List.rdropWhile]
      intro a ha
      rw [List.reverse_replicate] at ha
      exact decide_eq_true (List.eq_of_mem_replicate ha)
    rw [significantDigits, Int.ofNat_eq_natCast, digitsIn_positional_natCast, hfront, hback]
    exact (List.rdropWhile_prefix _ _).length_le
  · rw [significantDigits, digitsIn_positional_negSucc,
      dropWhile_eq_digitsOf (valueFrom?_split c n) hx]
    exact (List.rdropWhile_prefix _ _).length_le

end LinearLight.Decimal
