import Mathlib.Algebra.Group.Nat.Defs
import Mathlib.Data.List.Basic
import Mathlib.Data.List.Induction
import LinearLight.Decimal.Digits

/-!
# Numerals in decimal

A numeral is a run of digits without superfluous zeros. Writing a number gives a numeral, reading
the numeral gives the number, and no other numeral stands for it.

## Main definitions

- `Decimal.IsNumeral`: the form of a number, said without writing one

## Main statements

- `Decimal.valueOf?_digitsOf`: what is written is read
- `Decimal.digitsOf_eq_iff`: the numeral with a value is the one written for it
- `Decimal.canonicalValue?_eq_some_iff`
- `Decimal.pow_le_of_lt_length`, `Decimal.valueFrom?_lt`: how many digits a number takes
-/

namespace LinearLight.Decimal

/-- At least one digit, nothing but digits, and a zero in front of no other digit. -/
structure IsNumeral (text : List Char) : Prop where
  ne_nil : text ≠ []
  digits : ∀ c ∈ text, '0' ≤ c ∧ c ≤ '9'
  zero_first : text.head? = some '0' → text = ['0']

/-! ### One digit -/

theorem digitValue?_digitChar : ∀ d < 10, digitValue? (digitChar d) = some d := by decide

theorem isDigit_digitChar : ∀ d < 10, '0' ≤ digitChar d ∧ digitChar d ≤ '9' := by decide

theorem digitChar_eq_zero_iff : ∀ d < 10, digitChar d = '0' ↔ d = 0 := by decide

theorem exists_digitChar_eq {c : Char} (h : '0' ≤ c ∧ c ≤ '9') : ∃ d < 10, digitChar d = c := by
  have hlow : 48 ≤ c.toNat := h.1
  have hhigh : c.toNat ≤ 57 := h.2
  refine ⟨c.toNat - 48, by omega, ?_⟩
  rw [digitChar, show '0'.toNat + (c.toNat - 48) = c.toNat by
    change 48 + (c.toNat - 48) = c.toNat; omega, Char.ofNat_toNat]

/-! ### What is written is read -/

theorem valueFrom?_append (value : Nat) (first second : List Char) :
    valueFrom? value (first ++ second) =
      (valueFrom? value first).bind fun v => valueFrom? v second := by
  induction first generalizing value with
  | nil => rfl
  | cons c rest ih =>
    simp only [List.cons_append, valueFrom?]
    cases digitValue? c with
    | none => rfl
    | some d => exact ih _

theorem valueFrom?_append_digitChar {first : List Char} {v d : Nat} (hd : d < 10)
    (h : valueFrom? 0 first = some v) :
    valueFrom? 0 (first ++ [digitChar d]) = some (10 * v + d) := by
  rw [valueFrom?_append, h]
  simp [valueFrom?, digitValue?_digitChar d hd]

theorem digitsOf_of_lt {n : Nat} (h : n < 10) : digitsOf n = [digitChar n] := by
  rw [digitsOf, if_pos h]

/-- The last digit is the remainder. -/
theorem digitsOf_append {v d : Nat} (hv : v ≠ 0) (hd : d < 10) :
    digitsOf (10 * v + d) = digitsOf v ++ [digitChar d] := by
  rw [digitsOf, if_neg (by omega), show (10 * v + d) / 10 = v by omega,
    show (10 * v + d) % 10 = d by omega]

theorem digitsOf_ne_nil (n : Nat) : digitsOf n ≠ [] := by
  rw [digitsOf]
  split <;> simp

theorem valueOf?_eq_valueFrom? {text : List Char} (h : text ≠ []) :
    valueOf? text = valueFrom? 0 text := by
  cases text with
  | nil => exact absurd rfl h
  | cons c rest => rfl

theorem valueOf?_digitsOf (n : Nat) : valueOf? (digitsOf n) = some n := by
  rw [valueOf?_eq_valueFrom? (digitsOf_ne_nil n)]
  induction n using digitsOf.induct with
  | case1 n hn =>
    rw [digitsOf_of_lt hn]
    simp [valueFrom?, digitValue?_digitChar n hn]
  | case2 n hn ih =>
    rw [digitsOf, if_neg hn, valueFrom?_append_digitChar (Nat.mod_lt n (by decide)) ih,
      Nat.div_add_mod]

/-! ### What is written is a numeral -/

theorem isDigit_of_mem_digitsOf {n : Nat} {c : Char} (h : c ∈ digitsOf n) : '0' ≤ c ∧ c ≤ '9' := by
  induction n using digitsOf.induct with
  | case1 n hn =>
    rw [digitsOf_of_lt hn, List.mem_singleton] at h
    exact h ▸ isDigit_digitChar n hn
  | case2 n hn ih =>
    rw [digitsOf, if_neg hn, List.mem_append, List.mem_singleton] at h
    rcases h with h | rfl
    · exact ih h
    · exact isDigit_digitChar _ (Nat.mod_lt n (by decide))

theorem head?_digitsOf_ne_zero {n : Nat} (h : n ≠ 0) : (digitsOf n).head? ≠ some '0' := by
  induction n using digitsOf.induct with
  | case1 n hn =>
    rw [digitsOf_of_lt hn, List.head?_cons, ne_eq, Option.some.injEq, digitChar_eq_zero_iff n hn]
    exact h
  | case2 n hn ih =>
    rw [digitsOf, if_neg hn, List.head?_append_of_ne_nil _ (digitsOf_ne_nil _)]
    exact ih (by omega)

theorem isNumeral_digitsOf (n : Nat) : IsNumeral (digitsOf n) where
  ne_nil := digitsOf_ne_nil n
  digits _ := isDigit_of_mem_digitsOf
  zero_first h := by
    cases n with
    | zero => exact digitsOf_of_lt (by decide)
    | succ n => exact absurd h (head?_digitsOf_ne_zero n.succ_ne_zero)

/-! ### How long a numeral is -/

/-- A number with more than `k` digits is no smaller than `10 ^ k`. By induction on the digits. -/
theorem pow_le_of_lt_length {n k : Nat} (hn : n ≠ 0) (h : k < (digitsOf n).length) :
    10 ^ k ≤ n := by
  induction n using digitsOf.induct generalizing k with
  | case1 n hlt =>
    rw [digitsOf_of_lt hlt, List.length_singleton] at h
    obtain rfl : k = 0 := by omega
    exact Nat.pos_of_ne_zero hn
  | case2 n hge ih =>
    rw [digitsOf, if_neg hge, List.length_append, List.length_singleton] at h
    cases k with
    | zero => exact Nat.pos_of_ne_zero hn
    | succ k =>
      have hle : 10 ^ k ≤ n / 10 := ih (by omega) (by omega)
      rw [Nat.pow_succ]
      omega

/-! ### Digits read -/

theorem digitValue?_of_isDigit {c : Char} (h : '0' ≤ c ∧ c ≤ '9') :
    ∃ d < 10, digitValue? c = some d := by
  obtain ⟨d, hd, rfl⟩ := exists_digitChar_eq h
  exact ⟨d, hd, digitValue?_digitChar d hd⟩

theorem valueFrom?_cons {value : Nat} {c : Char} {rest : List Char} {n : Nat} :
    valueFrom? value (c :: rest) = some n ↔
      ∃ d, digitValue? c = some d ∧ valueFrom? (10 * value + d) rest = some n :=
  Option.bind_eq_some_iff

/-- Digits, and nothing else, can be read. -/
theorem exists_valueFrom?_iff {value : Nat} {text : List Char} :
    (∃ n, valueFrom? value text = some n) ↔ ∀ c ∈ text, '0' ≤ c ∧ c ≤ '9' := by
  induction text generalizing value with
  | nil => simp [valueFrom?]
  | cons c rest ih =>
    simp only [valueFrom?_cons, List.forall_mem_cons]
    constructor
    · rintro ⟨n, d, hd, hrest⟩
      refine ⟨?_, ih.mp ⟨n, hrest⟩⟩
      by_contra hc
      simp [digitValue?, hc] at hd
    · rintro ⟨hc, hrest⟩
      obtain ⟨d, -, hd⟩ := digitValue?_of_isDigit hc
      obtain ⟨n, hn⟩ := ih.mpr hrest
      exact ⟨n, d, hd, hn⟩

/-- What digits add to the number in front of them is less than their places have room for. -/
theorem valueFrom?_lt {value n : Nat} {text : List Char} (h : valueFrom? value text = some n) :
    n < (value + 1) * 10 ^ text.length := by
  induction text generalizing value with
  | nil =>
    obtain rfl := Option.some.inj h
    simp
  | cons c rest ih =>
    obtain ⟨d, hd, hrest⟩ := valueFrom?_cons.mp h
    have hdigit : d < 10 := by
      obtain ⟨d', hd', hc⟩ := digitValue?_of_isDigit
        (exists_valueFrom?_iff.mp ⟨n, h⟩ c List.mem_cons_self)
      rw [hd, Option.some.injEq] at hc
      omega
    calc n < (10 * value + d + 1) * 10 ^ rest.length := ih hrest
      _ ≤ ((value + 1) * 10) * 10 ^ rest.length := Nat.mul_le_mul_right _ (by omega)
      _ = (value + 1) * 10 ^ (c :: rest).length := by
        rw [List.length_cons, Nat.pow_succ, Nat.mul_assoc, Nat.mul_comm 10]

/-- A number in front of digits is moved by their places. -/
theorem valueFrom?_add {value n : Nat} {text : List Char} (h : valueFrom? value text = some n)
    (front : Nat) : valueFrom? (front + value) text = some (front * 10 ^ text.length + n) := by
  induction text generalizing value front with
  | nil =>
    obtain rfl := Option.some.inj h
    simp [valueFrom?]
  | cons c rest ih =>
    obtain ⟨d, hd, hrest⟩ := valueFrom?_cons.mp h
    have hvalue : 10 * (front + value) + d = 10 * front + (10 * value + d) := by omega
    have hplaces : front * 10 ^ (c :: rest).length = 10 * front * 10 ^ rest.length := by
      rw [List.length_cons, Nat.pow_succ, Nat.mul_comm 10 front, Nat.mul_assoc, Nat.mul_comm 10]
    refine valueFrom?_cons.mpr ⟨d, hd, ?_⟩
    rw [hvalue, hplaces]
    exact ih hrest (10 * front)

/-- Zeros behind a number move it by as many places. -/
theorem valueFrom?_replicate_zero (value count : Nat) :
    valueFrom? value (List.replicate count '0') = some (value * 10 ^ count) := by
  induction count generalizing value with
  | zero => simp [valueFrom?]
  | succ count ih =>
    have hzero : digitValue? '0' = some 0 := digitValue?_digitChar 0 (by decide)
    rw [List.replicate_succ, valueFrom?_cons]
    refine ⟨0, hzero, ?_⟩
    rw [Nat.add_zero, ih, Nat.pow_succ, Nat.mul_comm 10, Nat.mul_assoc, Nat.mul_comm 10]

/-! ### No other numeral has the value -/

/-- A numeral without its last digit is one as well, if anything is left. -/
theorem IsNumeral.of_append {first : List Char} {c : Char} (h : IsNumeral (first ++ [c]))
    (hne : first ≠ []) : IsNumeral first where
  ne_nil := hne
  digits a ha := h.digits a (List.mem_append_left _ ha)
  zero_first hzero := by
    have := h.zero_first (by rw [List.head?_append_of_ne_nil _ hne, hzero])
    exact absurd (List.append_eq_singleton_iff.mp this) (by simp [hne])

/-- By induction on the numeral from its end: the last digit is the remainder. -/
theorem IsNumeral.exists_digitsOf_eq {text : List Char} (h : IsNumeral text) :
    ∃ n, digitsOf n = text := by
  induction text using List.reverseRecOn with
  | nil => exact absurd rfl h.ne_nil
  | append_singleton first c ih =>
    obtain ⟨d, hd, rfl⟩ := exists_digitChar_eq (h.digits c (by simp))
    by_cases hne : first = []
    · subst hne
      exact ⟨d, digitsOf_of_lt hd⟩
    · obtain ⟨v, rfl⟩ := ih (h.of_append hne)
      have hv : v ≠ 0 := by
        rintro rfl
        have hzero : digitsOf 0 = ['0'] := digitsOf_of_lt (by decide)
        have := h.zero_first (by rw [hzero]; rfl)
        simp [hzero] at this
      exact ⟨10 * v + d, digitsOf_append hv hd⟩

/-- The numeral with a value is the one written for it. -/
theorem digitsOf_eq_iff {n : Nat} {text : List Char} :
    digitsOf n = text ↔ IsNumeral text ∧ valueOf? text = some n := by
  constructor
  · rintro rfl
    exact ⟨isNumeral_digitsOf n, valueOf?_digitsOf n⟩
  · rintro ⟨hnumeral, hvalue⟩
    obtain ⟨m, rfl⟩ := hnumeral.exists_digitsOf_eq
    rw [valueOf?_digitsOf, Option.some.injEq] at hvalue
    rw [hvalue]

theorem canonicalValue?_eq_some_iff {n : Nat} {text : List Char} :
    canonicalValue? text = some n ↔ digitsOf n = text := by
  constructor
  · intro h
    cases hvalue : valueOf? text with
    | none => simp [canonicalValue?, hvalue] at h
    | some m =>
      by_cases htext : digitsOf m = text
      · have hm : m = n := by simpa [canonicalValue?, hvalue, htext] using h
        rwa [hm] at htext
      · simp [canonicalValue?, hvalue, htext] at h
  · rintro rfl
    simp [canonicalValue?, valueOf?_digitsOf]

end LinearLight.Decimal
