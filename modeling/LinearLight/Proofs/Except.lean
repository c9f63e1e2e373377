/-!
# Calls that can fail

When calls in sequence succeed, and what renaming their errors leaves as it is.

## Main statements

- `bind_eq_ok`: one call after the other
- `foldlM_eq_error`: the first of several calls that fails
- `mapError_eq_ok`, `mapError_eq_error`: a call with its errors renamed
- `mapError_bind`: calls in sequence, each with its errors renamed
-/

namespace LinearLight

/-- Two calls succeed one after the other if the first does, and the second on its result. -/
theorem bind_eq_ok {ε α β : Type} {first : Except ε α} {second : α → Except ε β} {b : β} :
    (first >>= second) = .ok b ↔ ∃ a, first = .ok a ∧ second a = .ok b := by
  cases first <;> simp [bind, Except.bind]

/-- Calls in sequence fail where one fails after those in front of it have succeeded. -/
theorem foldlM_eq_error {ε α β : Type} {call : β → α → Except ε β} {items : List α} {b : β}
    {e : ε} : items.foldlM call b = .error e ↔
      ∃ before item after b', items = before ++ item :: after ∧
        before.foldlM call b = .ok b' ∧ call b' item = .error e := by
  induction items generalizing b with
  | nil => simp [pure, Except.pure]
  | cons first items ih =>
    rw [List.foldlM_cons]
    constructor
    · intro h
      cases hfirst : call b first with
      | error e' =>
        rw [hfirst] at h
        exact ⟨[], first, items, b, rfl, rfl, by rw [hfirst]; exact h⟩
      | ok next =>
        rw [hfirst] at h
        obtain ⟨before, item, after, b', rfl, hbefore, hitem⟩ := ih.mp h
        refine ⟨first :: before, item, after, b', rfl, ?_, hitem⟩
        rw [List.foldlM_cons, hfirst]
        exact hbefore
    · rintro ⟨before, item, after, b', hitems, hbefore, hitem⟩
      cases before with
      | nil =>
        obtain ⟨rfl, rfl⟩ := List.cons.inj hitems
        obtain rfl : b = b' := Except.ok.inj hbefore
        rw [hitem]
        rfl
      | cons first' before =>
        obtain ⟨rfl, rfl⟩ := List.cons.inj hitems
        rw [List.foldlM_cons, bind_eq_ok] at hbefore
        obtain ⟨next, hfirst, hbefore⟩ := hbefore
        rw [hfirst]
        exact ih.mpr ⟨before, item, after, b', rfl, hbefore, hitem⟩

@[simp] theorem mapError_eq_ok {ε ε' α : Type} {f : ε → ε'} {x : Except ε α} {a : α} :
    x.mapError f = .ok a ↔ x = .ok a := by
  cases x with
  | ok a' =>
    change Except.ok a' = .ok a ↔ _
    simp
  | error e => exact ⟨nofun, nofun⟩

theorem mapError_eq_error {ε ε' α : Type} {f : ε → ε'} {x : Except ε α} {e' : ε'} :
    x.mapError f = .error e' ↔ ∃ e, x = .error e ∧ f e = e' := by
  cases x with
  | ok a => exact ⟨nofun, nofun⟩
  | error e =>
    change Except.error (f e) = .error e' ↔ _
    simp

theorem mapError_bind {ε ε' α β : Type} (f : ε → ε') (first : Except ε α)
    (second : α → Except ε β) :
    (first >>= second).mapError f = first.mapError f >>= fun a => (second a).mapError f := by
  cases first <;> rfl

end LinearLight
