/-!
# Lists cut at separators

## Main definitions

- `split`: the parts of a list between separators
-/

namespace LinearLight

variable {α : Type} [DecidableEq α]

/-- The parts of a list between separators, empty ones included; there is always one. -/
def split (separator : α) : List α → List (List α)
  | [] => [[]]
  | a :: rest =>
    if a = separator then [] :: split separator rest
    else
      match split separator rest with
      | [] => [[a]]
      | first :: more => (a :: first) :: more

/-- Parts joined with separators between them. -/
def unsplit (separator : α) : List (List α) → List α
  | [] => []
  | [part] => part
  | part :: more => part ++ separator :: unsplit separator more

theorem split_ne_nil (separator : α) (list : List α) : split separator list ≠ [] := by
  cases list with
  | nil => simp [split]
  | cons a rest =>
    simp only [split]
    split
    · simp
    · split <;> simp

/-- Cutting loses nothing. -/
theorem unsplit_split (separator : α) (list : List α) :
    unsplit separator (split separator list) = list := by
  induction list with
  | nil => rfl
  | cons a rest ih =>
    have hne := split_ne_nil separator rest
    simp only [split]
    generalize split separator rest = parts at ih hne ⊢
    cases parts with
    | nil => exact absurd rfl hne
    | cons first more =>
      by_cases h : a = separator
      · simp [h, unsplit, ih]
      · cases more <;> simp_all [unsplit]

end LinearLight
