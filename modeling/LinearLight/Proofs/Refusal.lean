import LinearLight.Proofs.Binary64.Text
import LinearLight.Proofs.Curve
import LinearLight.Tables.Error

/-!
# Refused numbers can be read back

The message of a refusal holds the text of the number refused, between words that never change, and
so does the message of the failure that a refusal becomes when tables are made. Taken out and read,
that text is the number again, bit for bit. So refusals of different numbers have different
messages; only refusals of NaN have one message for all of them.

## Main definitions

- `refusedNumber?`: the text of the number in the message of a refusal
- `curveCause?`: the message of a refusal in that of a failure of tables
- `OutsideRange`: what lies outside the range, said without a comparison of doubles
- `Legible`: what the text of a number offers to a reader

## Main statements

- `outsideRange_iff`: these are the numbers refused
- `refusals_legible`
-/

namespace LinearLight

open Binary64 Decimal

variable {x y : Binary64} {e : OutOfRange}

/-- The text between the words at both ends of a message. -/
def between? (front back message : String) : Option String := do
  let rest ← message.toList.dropPrefix? front.toList
  let inner ← rest.dropSuffix? back.toList
  some (String.ofList inner)

/-- The text of the number in the message of a refusal. -/
def refusedNumber? (message : String) : Option String :=
  between? "value " " is outside the valid input range [0, 1]" message

/-- The message of a refusal in the message of a failure of tables. -/
def curveCause? (message : String) : Option String :=
  between? "transfer function error: " "" message

/-- NaN, the infinities, the numbers below zero and those above one. -/
def OutsideRange (x : Binary64) : Prop :=
  x.isNaN = true ∨ x.isInfinite = true ∨ x.value ℚ < 0 ∨ 1 < x.value ℚ

/-- A text is that of a number, and a good one: it is read as the number, it has no exponent, and no
text that is read as the number has fewer significant digits. -/
structure Legible (x : Binary64) (text : String) : Prop where
  reads : read? text = some x
  form : ∃ body, text.toList = (if x.negative then '-' :: body else body) ∧
    (x.isInfinite = true ∧ body = "inf".toList ∨ x.IsFinite ∧ IsPositional body)
  shortest (s : String) : read? s = some x →
    (significantDigits text.toList).length ≤ (significantDigits s.toList).length

/-! ### Which numbers are refused -/

theorem decode_eq_error_iff : decode x = .error e ↔ inRange x = false ∧ e.value = x := by
  obtain ⟨value⟩ := e
  cases h : inRange x <;> simp [decode, h, eq_comm]

theorem outsideRange_iff : OutsideRange x ↔ inRange x = false := by
  rw [← Bool.not_eq_true, inRange_iff ℚ, OutsideRange]
  constructor
  · rintro (h | h | h | h) ⟨hfinite, hzero, hone⟩
    · exact absurd h (by rw [hfinite.isNaN_eq_false]; decide)
    · exact absurd h (by rw [hfinite.isInfinite_eq_false]; decide)
    · exact absurd hzero (not_le.mpr h)
    · exact absurd hone (not_le.mpr h)
  · intro h
    cases hnan : x.isNaN with
    | true => exact .inl rfl
    | false =>
      rcases isFinite_or_isInfinite hnan with hfinite | hinfinite
      · refine .inr (.inr ?_)
        by_contra! hrange
        exact h ⟨hfinite, hrange⟩
      · exact .inr (.inl hinfinite)

theorem OutsideRange.magnitude_ne_zero (h : OutsideRange x) : x.magnitude ≠ 0 := by
  intro hzero
  have hvalue : x.value ℚ = 0 := (value_eq_zero_iff ℚ).mpr hzero
  rcases h with h | h | h | h
  · exact absurd (of_decide_eq_true h) (by rw [hzero]; decide)
  · exact absurd (of_decide_eq_true h) (by rw [hzero]; decide)
  · exact absurd h (by rw [hvalue]; exact lt_irrefl 0)
  · exact absurd h (by rw [hvalue]; norm_num)

theorem compute_of_error (h : decode x = .error e) : Sample.compute x = .error (.curve e) := by
  simp only [Sample.compute, Sample.ofDisplay, h]
  rfl

/-! ### What the message holds -/

theorem between?_append (front inner back : String) :
    between? front back (front ++ inner ++ back) = some inner := by
  have hfront : (front ++ inner ++ back).toList.dropPrefix? front.toList =
      some (inner.toList ++ back.toList) := by
    rw [List.dropPrefix?_eq_some_iff, String.toList_append, String.toList_append, List.append_assoc]
    exact ⟨front.toList, rfl, beq_self_eq_true _⟩
  have hback : (inner.toList ++ back.toList).dropSuffix? back.toList = some inner.toList := by
    rw [List.dropSuffix?_eq_some_iff]
    exact ⟨back.toList, rfl, beq_self_eq_true _⟩
  simp only [between?, hfront, hback, Option.bind_eq_bind, Option.bind_some, String.ofList_toList]

theorem refusedNumber?_message (e : OutOfRange) : refusedNumber? e.message = some e.value.text :=
  between?_append _ _ _

theorem curveCause?_message (e : OutOfRange) :
    curveCause? (TableError.curve e).message = some e.message := by
  have happend := between?_append "transfer function error: " e.message ""
  rwa [String.append_empty] at happend

theorem legible_text (hnan : x.isNaN = false) (hzero : x.magnitude ≠ 0) : Legible x x.text where
  reads := read?_text hnan
  form := ⟨unsignedText x, toList_text hnan, unsignedText_cases hnan hzero⟩
  shortest _ := length_significantDigits_text_le

/-! ### Refusals -/

/-- A word taken as a double is refused just when it does not lie between 0 and 1; the refusal holds
the word's own bits, and making tables fails with that refusal. Of a refused number other than NaN,
both messages hold a legible text; so the messages for two such words differ. -/
theorem refusals_legible :
    (∀ word : UInt64, ((∃ e, decode (ofBits word) = .error e) ↔
        ¬ (zero.le (ofBits word) = true ∧ (ofBits word).le one = true)) ∧
      ((∃ e, decode (ofBits word) = .error e) ↔ OutsideRange (ofBits word))) ∧
    (∀ (word : UInt64) (e : OutOfRange), decode (ofBits word) = .error e →
      e.value.toBits = word ∧ Sample.compute (ofBits word) = .error (.curve e) ∧
      ((ofBits word).isNaN = false → ∃ text, Legible (ofBits word) text ∧
        refusedNumber? e.message = some text ∧
        (curveCause? (TableError.curve e).message).bind refusedNumber? = some text)) ∧
    (∀ (word word' : UInt64) (e e' : OutOfRange), decode (ofBits word) = .error e →
      decode (ofBits word') = .error e' → (ofBits word).isNaN = false →
      (ofBits word').isNaN = false → word ≠ word' →
      e.message ≠ e'.message ∧ (TableError.curve e).message ≠ (TableError.curve e').message) := by
  refine ⟨fun word => ?_, fun word e h => ?_, fun word word' e e' h h' hnan hnan' hne => ?_⟩
  · have herror : (∃ e, decode (ofBits word) = .error e) ↔ inRange (ofBits word) = false := by
      simp [decode_eq_error_iff]
    rw [herror, outsideRange_iff, inRange]
    exact ⟨by rw [← Bool.not_eq_true, Bool.and_eq_true], Iff.rfl⟩
  · obtain ⟨hrange, hvalue⟩ := decode_eq_error_iff.mp h
    refine ⟨by rw [hvalue, toBits_ofBits], compute_of_error h, fun hnan => ?_⟩
    have hzero := (outsideRange_iff.mpr hrange).magnitude_ne_zero
    refine ⟨(ofBits word).text, legible_text hnan hzero, ?_, ?_⟩
    · rw [refusedNumber?_message, hvalue]
    · rw [curveCause?_message, Option.bind_some, refusedNumber?_message, hvalue]
  · obtain ⟨-, hvalue⟩ := decode_eq_error_iff.mp h
    obtain ⟨-, hvalue'⟩ := decode_eq_error_iff.mp h'
    have hmessage : e.message ≠ e'.message := by
      intro hsame
      have hnumber := refusedNumber?_message e
      rw [hsame, refusedNumber?_message, Option.some.injEq, hvalue, hvalue'] at hnumber
      have hdouble := text_injective hnan' hnan hnumber
      exact hne (by rw [← toBits_ofBits word, ← hdouble, toBits_ofBits])
    refine ⟨hmessage, fun hsame => hmessage ?_⟩
    have hcause := curveCause?_message e
    rw [hsame, curveCause?_message, Option.some.injEq] at hcause
    exact hcause.symm

/-- The least negative number, with 324 places behind the point, and infinity. -/
theorem refusals_legible_of_tiny :
    decode (ofBits 0x8000000000000001) = .error ⟨ofBits 0x8000000000000001⟩ ∧
    decode (ofBits 0x7FF0000000000000) = .error ⟨ofBits 0x7FF0000000000000⟩ ∧
    (ofBits 0x8000000000000001).isNaN = false ∧ (ofBits 0x7FF0000000000000).isNaN = false ∧
    (∃ text, Legible (ofBits 0x8000000000000001) text ∧
      refusedNumber? (OutOfRange.mk (ofBits 0x8000000000000001)).message = some text) ∧
    (OutOfRange.mk (ofBits 0x8000000000000001)).message ≠
      (OutOfRange.mk (ofBits 0x7FF0000000000000)).message := by
  have htiny : decode (ofBits 0x8000000000000001) = .error ⟨ofBits 0x8000000000000001⟩ := by
    decide +kernel
  have hinfinity : decode (ofBits 0x7FF0000000000000) = .error ⟨ofBits 0x7FF0000000000000⟩ := by
    decide +kernel
  have hnan : (ofBits 0x8000000000000001).isNaN = false := by decide +kernel
  have hnan' : (ofBits 0x7FF0000000000000).isNaN = false := by decide +kernel
  obtain ⟨-, hheld, hdiffer⟩ := refusals_legible
  obtain ⟨-, -, hlegible⟩ := hheld _ _ htiny
  obtain ⟨text, htext, hnumber, -⟩ := hlegible hnan
  exact ⟨htiny, hinfinity, hnan, hnan', ⟨text, htext, hnumber⟩,
    (hdiffer _ _ _ _ htiny hinfinity hnan hnan' (by decide)).1⟩

end LinearLight
