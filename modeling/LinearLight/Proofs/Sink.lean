import LinearLight.Sink

/-!
# What a sink accepts

However a sink answers, it never gets anything but a beginning of the text, and a writing that
succeeds has brought all of it. Call by call: each call offers what the calls before it left, the
first failure ends the writing, and text that was accepted to the end is flushed.

## Main definitions

- `WriteAnswer.taken`, `WriteAnswer.failure?`: what an answer takes of an offer, and the failure in
  it
- `acceptedOf`: what a script takes of a sequence of offers
- `Calls`, `Orderly`: what a transcript shows, call by call and in the end

## Main statements

- `exists_left_offerAll`: what is accepted and what is left make up the text
- `accepted_writeTo_isPrefix`, `accepted_writeTo_of_ok`, `accepted_writeTo_nil`
- `orderly_writeTo`: every writing is orderly, whatever the sink answers
-/

namespace LinearLight

variable (script : List WriteAnswer) (text : Bytes)

/-- What is accepted and what is left make up the text, and nothing is left after a success. -/
theorem exists_left_offerAll :
    ∃ left, (offerAll script text).accepted ++ left = text ∧
      ((offerAll script text).outcome = .ok () → left = []) := by
  induction script, text using offerAll.induct with
  | case1 script =>
    unfold offerAll
    exact ⟨[], rfl, fun _ => rfl⟩
  | case2 text _ =>
    exact ⟨[], by simp [offerAll, Transcript.after, Transcript.silent], fun _ => rfl⟩
  | case3 script text _ =>
    simp only [offerAll, Transcript.after, Transcript.silent]
    exact ⟨text, rfl, nofun⟩
  | case4 count script text _ _ ih =>
    obtain ⟨left, hleft, hok⟩ := ih
    simp only [offerAll, Transcript.after]
    refine ⟨left, ?_, hok⟩
    rw [List.append_assoc, hleft, List.take_append_drop]
  | case5 cause script text _ hinterrupted ih =>
    obtain ⟨left, hleft, hok⟩ := ih
    simp only [offerAll, hinterrupted, if_true, Transcript.after]
    exact ⟨left, hleft, hok⟩
  | case6 cause script text _ hinterrupted =>
    simp only [offerAll, hinterrupted, Transcript.after, Transcript.silent]
    exact ⟨text, rfl, nofun⟩

variable (flush : Option IoError)

theorem accepted_writeTo :
    (writeTo script flush text).accepted = (offerAll script text).accepted := by
  cases h : (offerAll script text).outcome <;> simp [writeTo, h]

theorem accepted_writeTo_isPrefix : (writeTo script flush text).accepted <+: text := by
  obtain ⟨left, hleft, -⟩ := exists_left_offerAll script text
  rw [accepted_writeTo]
  exact ⟨left, hleft⟩

variable {script text flush}

theorem accepted_writeTo_of_ok (h : (writeTo script flush text).outcome = .ok ()) :
    (writeTo script flush text).accepted = text := by
  obtain ⟨left, hleft, hok⟩ := exists_left_offerAll script text
  have hwritten : (offerAll script text).outcome = .ok () := by
    cases hout : (offerAll script text).outcome with
    | ok => rfl
    | error e => simp [writeTo, hout] at h
  rw [hok hwritten, List.append_nil] at hleft
  rw [accepted_writeTo]
  exact hleft

/-- A sink that is not scripted accepts everything. -/
theorem accepted_writeTo_nil (flush : Option IoError) (text : Bytes) :
    (writeTo [] flush text).accepted = text := by
  rw [accepted_writeTo]
  cases text with
  | nil => rfl
  | cons b rest => exact List.append_nil _

/-! ### Call by call -/

namespace WriteAnswer

/-- What an answer takes of an offer. -/
def taken (offer : Bytes) : WriteAnswer → Bytes
  | accept count => offer.take count
  | fail _ => []

/-- The failure that an answer ends the writing with. An interruption does not end it, and a sink
that takes nothing has failed. -/
def failure? : WriteAnswer → Option IoError
  | accept 0 => some .nothingAccepted
  | accept (_ + 1) => none
  | fail cause => if cause.isInterrupted then none else some cause

end WriteAnswer

/-- What a script takes of a sequence of offers, everything being taken once it is used up. -/
def acceptedOf : (script : List WriteAnswer) → (offers : List Bytes) → Bytes
  | _, [] => []
  | [], offer :: offers => offer ++ acceptedOf [] offers
  | answer :: script, offer :: offers => answer.taken offer ++ acceptedOf script offers

/-- The failure that the first `calls` answers of a script, and the flush after them, end the
writing with. -/
def endingFailure? (script : List WriteAnswer) (calls : Nat) (flush : Option IoError) :
    Option IoError :=
  ((script.take calls).findSome? WriteAnswer.failure?).or flush

/-- What the calls show when a text is written to a sink that answers as scripted: each offers what
the calls before it left, and none is made after a failure. -/
structure Calls (script : List WriteAnswer) (text : Bytes) (t : Transcript) : Prop where
  calls_le : t.offers.length ≤ script.length + 1
  offered : ∀ k offer, t.offers[k]? = some offer →
    acceptedOf script (t.offers.take k) ++ offer = text
  accepted_eq : t.accepted = acceptedOf script t.offers
  stops : ∀ k answer, k + 1 < t.offers.length → script[k]? = some answer → answer.failure? = none

/-- What a transcript shows before any flush. -/
structure Offered (script : List WriteAnswer) (text : Bytes) (t : Transcript) : Prop
    extends Calls script text t where
  flushes_eq : t.flushes = 0
  ok_iff : t.outcome = .ok () ↔ t.accepted = text
  error_iff : ∀ e, t.outcome = .error e ↔
    (script.take t.offers.length).findSome? WriteAnswer.failure? = some e

/-- What a transcript shows in the end: text that was accepted as a whole is flushed, once, and the
first failure that ends a writing is its outcome. -/
structure Orderly (script : List WriteAnswer) (flush : Option IoError) (text : Bytes)
    (t : Transcript) : Prop extends Calls script text t where
  isPrefix : t.accepted <+: text
  flushes_eq : t.flushes = if t.accepted = text then 1 else 0
  ok_iff : t.outcome = .ok () ↔ t.accepted = text ∧ flush = none
  error_iff : ∀ e, t.outcome = .error e ↔ endingFailure? script t.offers.length flush = some e

section Answer

variable {answer : WriteAnswer} {text : Bytes} {script : List WriteAnswer} {e : IoError}

theorem WriteAnswer.taken_append_drop (answer : WriteAnswer) (text : Bytes) :
    answer.taken text ++ text.drop (answer.taken text).length = text := by
  cases answer with
  | accept count =>
    rw [taken, List.length_take, ← List.drop_eq_drop_min, List.take_append_drop]
  | fail cause => rfl

theorem WriteAnswer.taken_of_failure (h : answer.failure? = some e) (text : Bytes) :
    answer.taken text = [] := by
  cases answer with
  | accept count =>
    cases count with
    | zero => rfl
    | succ count => simp [failure?] at h
  | fail cause => rfl

/-- A failure ends the offers. -/
theorem offerAll_of_failure (hne : text ≠ []) (h : answer.failure? = some e) :
    offerAll (answer :: script) text = Transcript.after text [] (.silent (.error e)) := by
  cases text with
  | nil => exact absurd rfl hne
  | cons b rest =>
    cases answer with
    | accept count =>
      cases count with
      | zero =>
        rw [WriteAnswer.failure?, Option.some.injEq] at h
        simp [offerAll, h]
      | succ count => simp [WriteAnswer.failure?] at h
    | fail cause =>
      cases hinterrupted : cause.isInterrupted with
      | true => simp [WriteAnswer.failure?, hinterrupted] at h
      | false =>
        have hcause : cause = e := by simpa [WriteAnswer.failure?, hinterrupted] using h
        simp [offerAll, hinterrupted, ← hcause]

/-- Without a failure, what was not taken is offered to the rest of the script. -/
theorem offerAll_of_no_failure (hne : text ≠ []) (h : answer.failure? = none) :
    offerAll (answer :: script) text =
      (offerAll script (text.drop (answer.taken text).length)).after text (answer.taken text) := by
  cases text with
  | nil => exact absurd rfl hne
  | cons b rest =>
    cases answer with
    | accept count =>
      cases count with
      | zero => simp [WriteAnswer.failure?] at h
      | succ count =>
        rw [offerAll, WriteAnswer.taken, List.length_take, ← List.drop_eq_drop_min] <;> simp
    | fail cause =>
      cases hinterrupted : cause.isInterrupted with
      | true => simp [offerAll, WriteAnswer.taken, hinterrupted]
      | false => simp [WriteAnswer.failure?, hinterrupted] at h

end Answer

namespace Offered

variable {answer : WriteAnswer} {text : Bytes} {script : List WriteAnswer} {e : IoError}

theorem nothing (script : List WriteAnswer) : Offered script [] (.silent (.ok ())) where
  calls_le := Nat.zero_le _
  offered := by simp [Transcript.silent]
  accepted_eq := by cases script <;> rfl
  stops := by simp [Transcript.silent]
  flushes_eq := rfl
  ok_iff := by simp [Transcript.silent]
  error_iff := by simp [Transcript.silent]

/-- A script that is used up takes everything at once. -/
theorem everything (text : Bytes) :
    Offered [] text (Transcript.after text text (.silent (.ok ()))) where
  calls_le := Nat.le_refl _
  offered k offer h := by
    cases k with
    | zero => simpa [Transcript.after, Transcript.silent, acceptedOf] using h.symm
    | succ k => simp [Transcript.after, Transcript.silent] at h
  accepted_eq := by simp [Transcript.after, Transcript.silent, acceptedOf]
  stops := by simp
  flushes_eq := rfl
  ok_iff := by simp [Transcript.after, Transcript.silent]
  error_iff := by simp [Transcript.after, Transcript.silent]

theorem failure (hne : text ≠ []) (h : answer.failure? = some e) (script : List WriteAnswer) :
    Offered (answer :: script) text (Transcript.after text [] (.silent (.error e))) where
  calls_le := by simp [Transcript.after, Transcript.silent]
  offered k offer hk := by
    cases k with
    | zero => simpa [Transcript.after, Transcript.silent, acceptedOf] using hk.symm
    | succ k => simp [Transcript.after, Transcript.silent] at hk
  accepted_eq := by
    simp [Transcript.after, Transcript.silent, acceptedOf, WriteAnswer.taken_of_failure h]
  stops := by simp [Transcript.after, Transcript.silent]
  flushes_eq := rfl
  ok_iff := by simp [Transcript.after, Transcript.silent, hne.symm]
  error_iff := by simp [Transcript.after, Transcript.silent, h]

/-- One more call before the others, without a failure. -/
theorem after (h : answer.failure? = none) {t : Transcript}
    (ht : Offered script (text.drop (answer.taken text).length) t) :
    Offered (answer :: script) text (t.after text (answer.taken text)) where
  calls_le := Nat.succ_le_succ ht.calls_le
  offered k offer hk := by
    cases k with
    | zero => simpa [Transcript.after, acceptedOf] using hk.symm
    | succ k =>
      have hrest := ht.offered k offer (by simpa [Transcript.after] using hk)
      simp only [Transcript.after, List.take_succ_cons, acceptedOf]
      rw [List.append_assoc, hrest, WriteAnswer.taken_append_drop]
  accepted_eq := by
    simp only [Transcript.after, acceptedOf]
    rw [ht.accepted_eq]
  stops k before hk hbefore := by
    cases k with
    | zero => simpa [← Option.some.inj hbefore] using h
    | succ k => exact ht.stops k before (Nat.lt_of_succ_lt_succ hk) hbefore
  flushes_eq := ht.flushes_eq
  ok_iff := by
    rw [show (t.after text (answer.taken text)).outcome = t.outcome from rfl, ht.ok_iff]
    have htext := WriteAnswer.taken_append_drop answer text
    constructor
    · intro haccepted
      simp only [Transcript.after]
      rw [haccepted, htext]
    · intro haccepted
      exact List.append_cancel_left (haccepted.trans htext.symm)
  error_iff e := by
    rw [show (t.after text (answer.taken text)).outcome = t.outcome from rfl, ht.error_iff]
    simp [Transcript.after, h]

end Offered

theorem offered_offerAll (script : List WriteAnswer) (text : Bytes) :
    Offered script text (offerAll script text) := by
  induction script generalizing text with
  | nil =>
    cases text with
    | nil => exact .nothing []
    | cons b rest => exact .everything (b :: rest)
  | cons answer script ih =>
    by_cases hne : text = []
    · rw [hne]
      exact .nothing (answer :: script)
    · cases h : answer.failure? with
      | some e =>
        rw [offerAll_of_failure hne h]
        exact .failure hne h script
      | none =>
        rw [offerAll_of_no_failure hne h]
        exact .after h (ih _)

/-- A sink that fails gets no flush. -/
theorem Offered.orderly_of_error {t : Transcript} {e : IoError} (h : Offered script text t)
    (he : t.outcome = .error e) (hbeginning : t.accepted <+: text) :
    Orderly script flush text t where
  toCalls := h.toCalls
  isPrefix := hbeginning
  flushes_eq := by
    have hne : t.accepted ≠ text := fun haccepted => by simp [h.ok_iff.mpr haccepted] at he
    rw [h.flushes_eq, if_neg hne]
  ok_iff := by
    have hne : t.accepted ≠ text := fun haccepted => by simp [h.ok_iff.mpr haccepted] at he
    simp [he, hne]
  error_iff e' := by
    rw [endingFailure?, (h.error_iff e).mp he, he, Option.some_or, Except.error.injEq,
      Option.some.injEq]

/-- Text accepted to the end is flushed, and the flush decides. -/
theorem Offered.orderly_of_ok {t : Transcript} (h : Offered script text t)
    (hok : t.outcome = .ok ()) : Orderly script flush text
      { t with
        flushes := 1
        outcome := match flush with | some cause => .error cause | none => .ok () } where
  calls_le := h.calls_le
  offered := h.offered
  accepted_eq := h.accepted_eq
  stops := h.stops
  isPrefix := (h.ok_iff.mp hok) ▸ List.prefix_rfl
  flushes_eq := by rw [if_pos (h.ok_iff.mp hok)]
  ok_iff := by
    have haccepted := h.ok_iff.mp hok
    cases flush <;> simp [haccepted]
  error_iff e := by
    have hnone : (script.take t.offers.length).findSome? WriteAnswer.failure? = none := by
      cases hfailure : (script.take t.offers.length).findSome? WriteAnswer.failure? with
      | none => rfl
      | some e => simp [(h.error_iff e).mpr hfailure] at hok
    rw [endingFailure?, hnone, Option.none_or]
    cases flush <;> simp

variable (script text flush)

theorem orderly_writeTo : Orderly script flush text (writeTo script flush text) := by
  have h := offered_offerAll script text
  cases hout : (offerAll script text).outcome with
  | error e =>
    have hbeginning := accepted_writeTo_isPrefix script text flush
    rw [accepted_writeTo] at hbeginning
    simpa only [writeTo, hout] using h.orderly_of_error hout hbeginning
  | ok =>
    cases flush with
    | none => simpa only [writeTo, hout] using h.orderly_of_ok hout
    | some cause => simpa only [writeTo, hout] using h.orderly_of_ok hout

end LinearLight
