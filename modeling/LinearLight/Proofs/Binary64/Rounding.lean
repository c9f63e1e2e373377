import Mathlib.Algebra.Order.Archimedean.Basic
import Mathlib.Algebra.Order.Field.Basic
import Mathlib.Data.Nat.Cast.Order.Field
import Mathlib.Tactic.FieldSimp
import Mathlib.Tactic.Linarith
import Mathlib.Tactic.NormNum
import Mathlib.Tactic.Positivity
import LinearLight.Binary64.Rounding
import LinearLight.Proofs.Binary64.Units

/-!
# Rounding to the nearest magnitude

Numbers here are counted in units of the smallest positive double, and may be any real or rational
number. A number rounds to the first magnitude of which it does not pass the midpoint to the next. A
number on a midpoint passes it if the magnitude is odd; so it goes to the nearest magnitude, and of
two equally near to the even one. Rounding is determined by that, keeps order, and keeps the values
of magnitudes.

## Main definitions

- `Binary64.midpoint`: twice the midpoint between a magnitude's value and the next
- `Binary64.Past`: what lies past a midpoint
- `Binary64.RoundsTo`: the magnitude to which a number rounds

## Main statements

- `Binary64.RoundsTo.unique`, `Binary64.RoundsTo.mono`
- `Binary64.roundsTo_nearest`: `nearest` rounds
- `Binary64.RoundsTo.abs_sub_le`: how far a number is from what it rounds to
-/

namespace LinearLight.Binary64

variable {m m' k : Nat}

/-- Twice the midpoint between a magnitude's value and the next, in units. -/
def midpoint (m : Nat) : Nat := unitsOf m + unitsOf (m + 1)

theorem midpoint_strictMono : StrictMono midpoint := fun _ _ h =>
  Nat.add_lt_add (unitsOf_strictMono h) (unitsOf_strictMono (Nat.succ_lt_succ h))

theorem two_mul_unitsOf_lt_midpoint (m : Nat) : 2 * unitsOf m < midpoint m := by
  have hstep : unitsOf m < unitsOf (m + 1) := unitsOf_strictMono (Nat.lt_succ_self m)
  rw [midpoint]
  omega

theorem midpoint_lt_two_mul_unitsOf (h : m < k) : midpoint m < 2 * unitsOf k := by
  have hstep : unitsOf m < unitsOf (m + 1) := unitsOf_strictMono (Nat.lt_succ_self m)
  have hnext : unitsOf (m + 1) ≤ unitsOf k := unitsOf_strictMono.monotone h
  rw [midpoint]
  omega

variable {K : Type*} [Field K] [LinearOrder K] {r r' : K}

/-- A number of units lies past the midpoint behind a magnitude, or on it while the magnitude is
odd. -/
def Past (r : K) (m : Nat) : Prop :=
  (midpoint m : K) < 2 * r ∨ (midpoint m : K) = 2 * r ∧ m % 2 = 1

/-- The magnitude to which a number of units rounds. -/
structure RoundsTo (r : K) (m : Nat) : Prop where
  past_of_lt : ∀ k < m, Past r k
  not_past : ¬ Past r m

theorem Past.midpoint_le (h : Past r m) : (midpoint m : K) ≤ 2 * r :=
  h.elim le_of_lt fun h => h.1.le

theorem le_midpoint_of_not_past (h : ¬ Past r m) : 2 * r ≤ midpoint m :=
  not_lt.mp fun hlt => h (.inl hlt)

theorem RoundsTo.le_of_not_past (h : RoundsTo r m) (hk : ¬ Past r k) : m ≤ k := by
  by_contra! hlt
  exact hk (h.past_of_lt k hlt)

variable [IsStrictOrderedRing K]

namespace Past

theorem of_le (h : Past r m) (hr : r ≤ r') : Past r' m := by
  have hle : 2 * r ≤ 2 * r' := by linarith
  rcases h with h | ⟨h, hodd⟩
  · exact .inl (h.trans_le hle)
  · rcases hle.lt_or_eq with hlt | heq
    · exact .inl (h.trans_lt hlt)
    · exact .inr ⟨h.trans heq, hodd⟩

/-- Midpoints grow with magnitudes. -/
theorem of_lt (h : Past r m) (hk : k < m) : Past r k := by
  have hmid : (midpoint k : K) < midpoint m := Nat.cast_lt.mpr (midpoint_strictMono hk)
  exact .inl (hmid.trans_le h.midpoint_le)

end Past

theorem past_of_unitsOf_le (hk : k < m) (h : (unitsOf m : K) ≤ r) : Past r k := by
  have hmid : (midpoint k : K) < 2 * unitsOf m := mod_cast midpoint_lt_two_mul_unitsOf hk
  exact .inl (by linarith)

theorem not_past_of_le_unitsOf (h : r ≤ unitsOf m) : ¬ Past r m := by
  intro hpast
  have hmid : 2 * (unitsOf m : K) < midpoint m := mod_cast two_mul_unitsOf_lt_midpoint m
  have hle := hpast.midpoint_le
  linarith

namespace RoundsTo

/-- Rounding keeps order. -/
theorem mono (h : RoundsTo r m) (h' : RoundsTo r' m') (hr : r ≤ r') : m ≤ m' :=
  h.le_of_not_past fun hpast => h'.not_past (hpast.of_le hr)

theorem unique (h : RoundsTo r m) (h' : RoundsTo r m') : m = m' :=
  Nat.le_antisymm (h.mono h' le_rfl) (h'.mono h le_rfl)

theorem le_of_le_unitsOf (h : RoundsTo r m) (hr : r ≤ unitsOf k) : m ≤ k :=
  h.le_of_not_past (not_past_of_le_unitsOf hr)

/-- What lies between two numbers that round alike rounds as they do. -/
theorem of_mem {x : K} (h : RoundsTo r m) (h' : RoundsTo r' m) (hlow : r ≤ x) (hhigh : x ≤ r') :
    RoundsTo x m where
  past_of_lt k hk := (h.past_of_lt k hk).of_le hlow
  not_past hpast := h'.not_past (hpast.of_le hhigh)

theorem past_iff (h : RoundsTo r m) : Past r k ↔ k < m := by
  refine ⟨fun hpast => ?_, h.past_of_lt k⟩
  by_contra! hle
  rcases hle.lt_or_eq with hlt | rfl
  · exact h.not_past (hpast.of_lt hlt)
  · exact h.not_past hpast

end RoundsTo

/-- The values of magnitudes stay what they are. -/
theorem roundsTo_unitsOf (m : Nat) : RoundsTo (unitsOf m : K) m where
  past_of_lt _ hk := past_of_unitsOf_le hk le_rfl
  not_past := not_past_of_le_unitsOf le_rfl

/-- Between the values of two neighbours, the midpoint decides. -/
theorem roundsTo_of_mem [Decidable (Past r m)] (hlow : (unitsOf m : K) ≤ r)
    (hhigh : r ≤ unitsOf (m + 1)) : RoundsTo r (if Past r m then m + 1 else m) := by
  split
  · next hpast =>
    refine ⟨fun k hk => ?_, not_past_of_le_unitsOf hhigh⟩
    rcases Nat.lt_succ_iff_lt_or_eq.mp hk with hk | rfl
    · exact past_of_unitsOf_le hk hlow
    · exact hpast
  · next hpast => exact ⟨fun k hk => past_of_unitsOf_le hk hlow, hpast⟩

/-- Every number that is not negative rounds to a magnitude. -/
theorem exists_roundsTo [Archimedean K] (hr : 0 ≤ r) : ∃ m, RoundsTo r m := by
  classical
  have hbound : ∃ m, r < unitsOf (m + 1) := by
    obtain ⟨n, hn⟩ := exists_nat_gt r
    have hle : n ≤ unitsOf (n + 1) :=
      (unitsOf_strictMono.le_apply).trans (unitsOf_strictMono (Nat.lt_succ_self n)).le
    exact ⟨n, hn.trans_le (Nat.cast_le.mpr hle)⟩
  have hlow : (unitsOf (Nat.find hbound) : K) ≤ r := by
    cases hm : Nat.find hbound with
    | zero => simpa [unitsOf_zero] using hr
    | succ m => exact not_lt.mp (Nat.find_min hbound (hm ▸ Nat.lt_succ_self m))
  exact ⟨_, roundsTo_of_mem hlow (Nat.find_spec hbound).le⟩

/-! ### Quotients of naturals -/

section Nearest

variable {num den : Nat}

/-- How `nearest` chooses the worth of a step: the whole steps in the quotient fill 53 bits, or
steps are single units. -/
theorem count_bounds (den scaled : Nat) :
    scaled / (den * 2 ^ ((scaled / den).log2 - 52)) < 0x20000000000000 ∧
      ((scaled / den).log2 - 52 = 0 ∨
        0x10000000000000 ≤ scaled / (den * 2 ^ ((scaled / den).log2 - 52))) := by
  rw [← Nat.div_div_eq_div_mul]
  generalize scaled / den = q
  constructor
  · rw [Nat.div_lt_iff_lt_mul (Nat.two_pow_pos _)]
    calc q < 2 ^ (q.log2 + 1) := Nat.lt_log2_self
      _ ≤ 2 ^ (53 + (q.log2 - 52)) := Nat.pow_le_pow_right (by decide) (by omega)
      _ = 0x20000000000000 * 2 ^ (q.log2 - 52) := Nat.pow_add 2 53 _
  · rcases Nat.eq_zero_or_pos (q.log2 - 52) with hzero | hpos
    · exact .inl hzero
    · refine .inr ?_
      have hq : q ≠ 0 := by
        rintro rfl
        simp at hpos
      rw [Nat.le_div_iff_mul_le (Nat.two_pow_pos _)]
      calc 0x10000000000000 * 2 ^ (q.log2 - 52) = 2 ^ (52 + (q.log2 - 52)) :=
            (Nat.pow_add 2 52 _).symm
        _ = 2 ^ q.log2 := by congr 1; omega
        _ ≤ q := Nat.log2_self_le hq

/-- For a quotient, midpoints are compared by naturals. -/
theorem past_div_iff (hden : 0 < den) {scaled : Nat} : Past ((scaled : K) / den) m ↔
    midpoint m * den < 2 * scaled ∨ midpoint m * den = 2 * scaled ∧ m % 2 = 1 := by
  have hpos : (0 : K) < den := Nat.cast_pos.mpr hden
  rw [Past, ← mul_div_assoc, lt_div_iff₀ hpos, eq_div_iff hpos.ne']
  norm_cast

/-- A quotient between the values of two neighbours goes by what is left of it beyond the first. -/
theorem roundsTo_div (hden : 0 < den) {scaled below step rest : Nat}
    (hlow : unitsOf below * den + rest = scaled)
    (hhigh : unitsOf (below + 1) * den = unitsOf below * den + step) (hrest : rest < step) :
    RoundsTo ((scaled : K) / den)
      (if 2 * rest < step ∨ 2 * rest = step ∧ below % 2 = 0 then below else below + 1) := by
  classical
  have hpast : Past ((scaled : K) / den) below ↔
      ¬ (2 * rest < step ∨ 2 * rest = step ∧ below % 2 = 0) := by
    rw [past_div_iff hden, midpoint, Nat.add_mul]
    omega
  have hpos : (0 : K) < den := Nat.cast_pos.mpr hden
  have hle : (unitsOf below : K) ≤ scaled / den := by
    rw [le_div_iff₀ hpos]
    exact_mod_cast (by omega : unitsOf below * den ≤ scaled)
  have hge : (scaled : K) / den ≤ unitsOf (below + 1) := by
    rw [div_le_iff₀ hpos]
    exact_mod_cast (by omega : scaled ≤ unitsOf (below + 1) * den)
  have hround := roundsTo_of_mem hle hge
  simp only [hpast, ite_not] at hround
  exact hround

/-- The magnitude computed for a quotient is the one to which it rounds. -/
theorem roundsTo_nearest (hden : 0 < den) :
    RoundsTo ((num : K) * unitsInOne / den) (nearest num den) := by
  obtain ⟨hcount, hshift⟩ := count_bounds den (num * unitsInOne)
  rw [← Nat.cast_mul, nearest, shiftLeft_1074]
  generalize num * unitsInOne = scaled at hcount hshift ⊢
  simp only [Nat.shiftLeft_eq]
  generalize (scaled / den).log2 - 52 = shift at hcount hshift ⊢
  have hrest : scaled % (den * 2 ^ shift) < den * 2 ^ shift :=
    Nat.mod_lt _ (Nat.mul_pos hden (Nat.two_pow_pos _))
  have hscaled : den * 2 ^ shift * (scaled / (den * 2 ^ shift)) + scaled % (den * 2 ^ shift) =
      scaled := Nat.div_add_mod _ _
  generalize scaled / (den * 2 ^ shift) = count at hcount hshift hscaled ⊢
  have hnext : count + 1 ≤ 0x20000000000000 := hcount
  refine roundsTo_div hden ?_ ?_ hrest
  · have hproduct : count * 2 ^ shift * den = den * 2 ^ shift * count := by ring
    rw [unitsOf_add hcount.le hshift, hproduct]
    exact hscaled
  · rw [Nat.add_assoc, unitsOf_add hcount.le hshift, unitsOf_add hnext (by omega)]
    ring

end Nearest

/-! ### The error of rounding -/

/-- A number whose steps are worth at most `2 ^ shift` is moved by at most half as much. -/
theorem RoundsTo.abs_sub_le {shift : Nat} (h : RoundsTo r m) (hr : 0 ≤ r)
    (hshift : r ≤ 0x20000000000000 * 2 ^ shift) : |unitsOf m - r| ≤ 2 ^ shift / 2 := by
  have htop : m ≤ (shift + 2) * 0x10000000000000 := by
    refine h.le_of_le_unitsOf (hshift.trans_eq ?_)
    rw [unitsOf_first (shift + 1)]
    push_cast
    ring
  have hstep : ∀ k < (shift + 2) * 0x10000000000000,
      (unitsOf (k + 1) : K) ≤ unitsOf k + 2 ^ shift := fun k hk => mod_cast unitsOf_succ_le hk
  rw [abs_sub_le_iff]
  constructor
  · -- the number is past the midpoint in front of the magnitude
    cases m with
    | zero =>
      have hpos : (0 : K) ≤ 2 ^ shift := by positivity
      rw [unitsOf_zero, Nat.cast_zero]
      linarith
    | succ k =>
      have hpast := (h.past_of_lt k (Nat.lt_succ_self k)).midpoint_le
      have hk := hstep k htop
      rw [midpoint, Nat.cast_add] at hpast
      linarith
  · -- and not past the one behind it
    rcases htop.lt_or_eq with hlt | heq
    · have hmid := le_midpoint_of_not_past h.not_past
      have hm := hstep m hlt
      rw [midpoint, Nat.cast_add] at hmid
      linarith
    · have hfirst : (unitsOf m : K) = 0x20000000000000 * 2 ^ shift := by
        rw [heq, unitsOf_first (shift + 1)]
        push_cast
        ring
      have hpos : (0 : K) ≤ 2 ^ shift := by positivity
      linarith

end LinearLight.Binary64
