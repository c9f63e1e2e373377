import LinearLight.Proofs.Binary64.Arithmetic

/-!
# Operations that keep order

The infinities are ordered with the finite doubles, so order can be kept by an operation on all
numbers: it rounds a function that grows, and leaves the infinities where they are. Multiplying by a
positive double and adding a finite one are such operations. Whole parts keep order as well.

## Main definitions

- `Binary64.RoundsMonotone`: an operation rounds a function that grows

## Main statements

- `Binary64.RoundsMonotone.le`: such an operation keeps order
- `Binary64.roundsMonotone_mul`, `Binary64.roundsMonotone_add`
- `Binary64.truncate_le_truncate`
-/

namespace LinearLight.Binary64

variable {a b c x : Binary64}

theorem le_eq_true_iff :
    a.le b = true ↔ a.isNaN = false ∧ b.isNaN = false ∧ a.rank ≤ b.rank := by
  simp [le, and_assoc]

/-! ### The infinities -/

theorem magnitude_le_infinite (h : x.isNaN = false) : x.magnitude ≤ infinite :=
  not_lt.mp (of_decide_eq_false h)

theorem isFinite_or_isInfinite (h : x.isNaN = false) : x.IsFinite ∨ x.isInfinite = true := by
  rcases (magnitude_le_infinite h).lt_or_eq with hlt | heq
  · exact .inl hlt
  · exact .inr (decide_eq_true heq)

theorem abs_rank (x : Binary64) : |x.rank| = x.magnitude := by
  unfold rank
  cases x.negative <;> simp

theorem abs_rank_le (h : x.isNaN = false) : |x.rank| ≤ infinite := by
  rw [abs_rank]
  exact_mod_cast magnitude_le_infinite h

/-- An infinity has the least rank or the greatest. -/
theorem rank_of_isInfinite (h : x.isInfinite = true) :
    x.rank = -(infinite : Int) ∨ x.rank = infinite := by
  have hmagnitude : x.magnitude = infinite := of_decide_eq_true h
  unfold rank
  cases x.negative <;> simp [hmagnitude]

theorem IsFinite.abs_rank_lt (h : x.IsFinite) : |x.rank| < infinite := by
  rw [abs_rank]
  exact_mod_cast h

/-! ### Operations -/

/-- An operation on all numbers rounds a function that grows, and leaves the infinities. -/
structure RoundsMonotone (f : Binary64 → Binary64) (g : ℚ → ℚ) : Prop where
  monotone : Monotone g
  rounds {x : Binary64} : x.IsFinite → Rounds (g (x.value ℚ)) (f x)
  infinite {x : Binary64} : x.isInfinite = true → f x = x

namespace RoundsMonotone

variable {f : Binary64 → Binary64} {g : ℚ → ℚ}

theorem isNaN_eq_false (h : RoundsMonotone f g) (hx : x.isNaN = false) : (f x).isNaN = false := by
  rcases isFinite_or_isInfinite hx with hfinite | hinfinite
  · exact (h.rounds hfinite).isNaN_eq_false
  · rwa [h.infinite hinfinite]

/-- Such an operation keeps order. -/
theorem le (h : RoundsMonotone f g) (hab : a.le b = true) : (f a).le (f b) = true := by
  obtain ⟨ha, hb, hrank⟩ := le_eq_true_iff.mp hab
  refine le_eq_true_iff.mpr ⟨h.isNaN_eq_false ha, h.isNaN_eq_false hb, ?_⟩
  have hbound := abs_le.mp (abs_rank_le (h.isNaN_eq_false ha))
  have hbound' := abs_le.mp (abs_rank_le (h.isNaN_eq_false hb))
  -- an infinity at its own end settles the comparison, and at the other end leaves no room
  rcases isFinite_or_isInfinite ha with hfinite | hinfinite
  · rcases isFinite_or_isInfinite hb with hfinite' | hinfinite'
    · exact (h.rounds hfinite).rank_le (h.rounds hfinite')
        (h.monotone ((value_le_value_iff ℚ).mpr hrank))
    · have habove := abs_lt.mp hfinite.abs_rank_lt
      rw [h.infinite hinfinite']
      rcases rank_of_isInfinite hinfinite' with hleast | hgreatest <;> omega
  · have hbelow := abs_le.mp (abs_rank_le hb)
    rw [h.infinite hinfinite]
    rcases rank_of_isInfinite hinfinite with hleast | hgreatest
    · omega
    · rcases isFinite_or_isInfinite hb with hfinite' | hinfinite'
      · have habove := abs_lt.mp hfinite'.abs_rank_lt
        omega
      · rw [h.infinite hinfinite']
        exact hrank

end RoundsMonotone

theorem ofMagnitude_infinite (h : x.isInfinite = true) : ofMagnitude x.negative infinite = x := by
  obtain ⟨negative, magnitude, hlt⟩ := x
  have hmagnitude : magnitude = infinite := of_decide_eq_true h
  simp [ofMagnitude, hmagnitude]

theorem not_isNaN_of_isInfinite (h : x.isInfinite = true) : x.isNaN = false :=
  decide_eq_false (Nat.not_lt.mpr (Nat.le_of_eq (of_decide_eq_true h)))

/-- Multiplying by a positive double. -/
theorem roundsMonotone_mul (hc : c.IsFinite) (hpos : 0 < c.value ℚ) :
    RoundsMonotone (· * c) (· * c.value ℚ) where
  monotone := monotone_mul_right_of_nonneg hpos.le
  rounds hx := rounds_mul hx hc
  infinite {x} hx := by
    have hzero : c.isZero = false := decide_eq_false (mt (value_eq_zero_iff ℚ).mpr hpos.ne')
    have hxzero : x.isZero = false := by
      have hmagnitude : x.magnitude = infinite := of_decide_eq_true hx
      exact decide_eq_false (by rw [hmagnitude]; decide)
    have hmul : x * c = ofMagnitude x.negative infinite := by
      change mul x c = _
      simp [mul, not_isNaN_of_isInfinite hx, hc.isNaN_eq_false, hx, hxzero, hzero,
        negative_of_value_pos ℚ hpos]
    exact hmul.trans (ofMagnitude_infinite hx)

/-- Adding a finite double. -/
theorem roundsMonotone_add (hc : c.IsFinite) : RoundsMonotone (· + c) (· + c.value ℚ) where
  monotone := add_left_mono
  rounds hx := rounds_add hx hc
  infinite {x} hx := by
    change add x c = x
    simp [add, not_isNaN_of_isInfinite hx, hc.isNaN_eq_false, hx, hc.isInfinite_eq_false]

/-! ### Whole parts -/

/-- The whole part goes by the rank, which is not positive for negative numbers. -/
theorem truncate_eq_of_rank (h : x.isNaN = false) (limit : Nat) :
    x.truncate limit = min (unitsOf x.rank.toNat >>> 1074) limit := by
  unfold truncate rank units
  cases x.negative
  · simp [h]
  · have hzero : unitsOf 0 >>> 1074 = 0 := by decide
    simp [h, hzero]

/-- Whole parts keep order. -/
theorem truncate_le_truncate (h : a.le b = true) (limit : Nat) :
    a.truncate limit ≤ b.truncate limit := by
  obtain ⟨ha, hb, hrank⟩ := le_eq_true_iff.mp h
  have hunits : unitsOf a.rank.toNat ≤ unitsOf b.rank.toNat :=
    unitsOf_strictMono.monotone (Int.toNat_le_toNat hrank)
  rw [truncate_eq_of_rank ha, truncate_eq_of_rank hb, shiftRight_1074, shiftRight_1074]
  exact min_le_min_right _ (Nat.div_le_div_right hunits)

end LinearLight.Binary64
