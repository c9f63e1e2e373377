import LinearLight.Split

/-!
# Cutting what was joined

Lists without separators that are joined and cut again come out as they were.

## Main statements

- `split_unsplit`: parts that are joined and cut again
- `unsplit_concat`: one more part joined to others
- `mem_unsplit_iff`: what is in parts that are joined
- `not_mem_of_mem_split`: parts hold no separators
-/

namespace LinearLight

variable {α : Type} [DecidableEq α] {separator : α}

theorem split_of_not_mem {part : List α} (h : separator ∉ part) :
    split separator part = [part] := by
  induction part with
  | nil => rfl
  | cons a rest ih =>
    rw [List.mem_cons, not_or] at h
    simp [split, Ne.symm h.1, ih h.2]

theorem split_append_separator {part : List α} (h : separator ∉ part) (rest : List α) :
    split separator (part ++ separator :: rest) = part :: split separator rest := by
  induction part with
  | nil => simp [split]
  | cons a more ih =>
    rw [List.mem_cons, not_or] at h
    simp [split, Ne.symm h.1, ih h.2]

/-- Parts without separators are cut where they were joined. -/
theorem split_unsplit {parts : List (List α)} (hne : parts ≠ [])
    (h : ∀ part ∈ parts, separator ∉ part) : split separator (unsplit separator parts) = parts := by
  induction parts with
  | nil => exact absurd rfl hne
  | cons first more ih =>
    have hfirst : separator ∉ first := h first List.mem_cons_self
    cases more with
    | nil => exact split_of_not_mem hfirst
    | cons second more =>
      rw [unsplit, split_append_separator hfirst,
        ih (by simp) fun part hpart => h part (List.mem_cons_of_mem _ hpart)]
      simp

omit [DecidableEq α] in
theorem unsplit_cons_cons (separator : α) (first second : List α) (more : List (List α)) :
    unsplit separator (first :: second :: more) =
      first ++ separator :: unsplit separator (second :: more) := rfl

omit [DecidableEq α] in
/-- Parts joined with one more at the end. -/
theorem unsplit_concat (separator : α) {parts : List (List α)} (hne : parts ≠ []) (last : List α) :
    unsplit separator (parts ++ [last]) = unsplit separator parts ++ separator :: last := by
  induction parts with
  | nil => exact absurd rfl hne
  | cons first more ih =>
    cases more with
    | nil => rfl
    | cons second more =>
      have hmore := ih (List.cons_ne_nil second more)
      rw [List.cons_append] at hmore
      rw [List.cons_append, List.cons_append, unsplit_cons_cons, hmore, unsplit_cons_cons,
        List.append_assoc, List.cons_append]

omit [DecidableEq α] in
/-- Joining brings in nothing but separators. -/
theorem mem_unsplit_iff {a : α} (ha : a ≠ separator) {parts : List (List α)} :
    a ∈ unsplit separator parts ↔ ∃ part ∈ parts, a ∈ part := by
  induction parts with
  | nil => simp [unsplit]
  | cons first more ih =>
    cases more with
    | nil => simp [unsplit]
    | cons second more =>
      rw [unsplit_cons_cons, List.mem_append, List.mem_cons, ih]
      simp [ha]

theorem not_mem_of_mem_split {list part : List α} (h : part ∈ split separator list) :
    separator ∉ part := by
  induction list generalizing part with
  | nil => simp_all [split]
  | cons a rest ih =>
    by_cases ha : a = separator
    · simp only [split, ha, if_true, List.mem_cons] at h
      rcases h with rfl | h
      · simp
      · exact ih h
    · obtain ⟨first, more, hsplit⟩ := List.exists_cons_of_ne_nil (split_ne_nil separator rest)
      simp only [split, ha, if_false, hsplit, List.mem_cons] at h
      have hfirst : separator ∉ first := ih (hsplit ▸ List.mem_cons_self)
      rcases h with rfl | h
      · simpa [Ne.symm ha] using hfirst
      · exact ih (hsplit ▸ List.mem_cons_of_mem _ h)

end LinearLight
