import LinearLight.Proofs.Binary64.Order
import LinearLight.Proofs.Decimal.Positional

/-!
# The text of a double

The text of a double is its shortest decimal, or the name of infinity, behind its sign. Reading it
gives the double back, bit for bit; and a text that reads as the double takes as many significant
digits or more.

## Main statements

- `Decimal.IsCoarsest.length_le`: a decimal on the coarsest grid has the fewest digits
- `Binary64.readUnsigned?_positional`, `Binary64.exists_of_readUnsigned?`: reading
- `Binary64.read?_text`: what is written is read
- `Binary64.unsignedText_cases`: the form of what is written
- `Binary64.length_significantDigits_text_le`
-/

namespace LinearLight

namespace Decimal

variable {m : Nat} {n : Number}

theorem IsCoarsest.coefficient_ne_zero (h : IsCoarsest m n) (hm : m ≠ 0) : n.coefficient ≠ 0 := by
  intro hzero
  have hreads := h.reads
  rw [Number.value, hzero, Nat.cast_zero, zero_mul] at hreads
  exact not_reads_zero hm hreads

/-- With fewer digits a power of ten would lie in between, on a coarser grid. -/
theorem IsCoarsest.length_le (h : IsCoarsest m n) (hm : m ≠ 0) {v k : Nat} {e : ℤ}
    (hv : v < 10 ^ k) (hreads : Reads (v * 10 ^ e) m) : (digitsOf n.coefficient).length ≤ k := by
  by_contra! hlt
  have hk : k ≠ 0 := by
    rintro rfl
    obtain rfl : v = 0 := by omega
    rw [Nat.cast_zero, zero_mul] at hreads
    exact not_reads_zero hm hreads
  have he : e ≤ n.exponent := not_lt.mp fun hlt => h.coarsest hlt v hreads
  have hpow : (10 : ℚ) ^ k ≤ n.coefficient := by
    exact_mod_cast pow_le_of_lt_length (h.coefficient_ne_zero hm) hlt
  have hvpow : (v : ℚ) ≤ 10 ^ k := by exact_mod_cast hv.le
  have hbetween : Reads (10 ^ k * 10 ^ n.exponent) m := by
    refine hreads.of_mem h.reads ?_ ?_
    · exact mul_le_mul hvpow (zpow_le_zpow_right₀ (by norm_num) he) (by positivity) (by positivity)
    · exact mul_le_mul_of_nonneg_right hpow (by positivity)
  refine h.coarsest (e := n.exponent + k) (by omega) 1 ?_
  rwa [Nat.cast_one, one_mul, zpow_add₀ (by norm_num), zpow_natCast, mul_comm]

theorem reads_shortest (hm : m < Binary64.infinite) : Reads (shortest m).value m := by
  by_cases hzero : m = 0
  · subst hzero
    have hvalue : (shortest 0).value = 0 := by
      simp [shortest, Number.value]
    rw [hvalue, Reads, zero_mul]
    simpa [Binary64.unitsOf_zero] using Binary64.roundsTo_unitsOf (K := ℚ) 0
  · exact (isCoarsest_shortest hzero hm).reads

end Decimal

namespace Binary64

open Decimal

variable {x y : Binary64} {negative : Bool} {whole fraction text : List Char}

/-! ### Reading -/

theorem ne_point_of_isDigit {c : Char} (h : '0' ≤ c ∧ c ≤ '9') : decide (c ≠ '.') = true := by
  refine decide_eq_true ?_
  rintro rfl
  exact absurd h (by decide)

theorem span_digits (h : ∀ c ∈ whole, '0' ≤ c ∧ c ≤ '9') :
    whole.span (· ≠ '.') = (whole, []) := by
  have hall : ∀ c ∈ whole, decide (c ≠ '.') = true := fun c hc => ne_point_of_isDigit (h c hc)
  rw [List.span_eq_takeWhile_dropWhile, List.takeWhile_eq_self_iff.mpr hall,
    List.dropWhile_eq_nil_iff.mpr hall]

theorem span_point (h : ∀ c ∈ whole, '0' ≤ c ∧ c ≤ '9') (fraction : List Char) :
    (whole ++ '.' :: fraction).span (· ≠ '.') = (whole, '.' :: fraction) := by
  have hall : ∀ c ∈ whole, decide (c ≠ '.') = true := fun c hc => ne_point_of_isDigit (h c hc)
  rw [List.span_eq_takeWhile_dropWhile, List.takeWhile_append_of_pos hall,
    List.dropWhile_append_of_pos hall]
  simp

theorem ne_inf_of_isDigit {c : Char} (hc : c ∈ text) (h : '0' ≤ c ∧ c ≤ '9') :
    text ≠ "inf".toList := by
  rintro rfl
  have hletters : ∀ c ∈ "inf".toList, ¬ ('0' ≤ c ∧ c ≤ '9') := by simp
  exact hletters c hc h

theorem readUnsigned?_digits {n : Nat} (hne : whole ≠ []) (hvalue : valueFrom? 0 whole = some n) :
    readUnsigned? negative whole = some (ofRatio negative n 1) := by
  have hdigits : ∀ c ∈ whole, '0' ≤ c ∧ c ≤ '9' := exists_valueFrom?_iff.mp ⟨n, hvalue⟩
  obtain ⟨c, hc⟩ := List.exists_mem_of_ne_nil whole hne
  rw [readUnsigned?, if_neg (ne_inf_of_isDigit hc (hdigits c hc)), span_digits hdigits]
  simp [valueOf?_eq_valueFrom? hne, hvalue]

theorem readUnsigned?_point (negative : Bool) {n : Nat} (hwhole : whole ≠ [])
    (hfraction : fraction ≠ []) (hvalue : valueFrom? 0 (whole ++ fraction) = some n) :
    readUnsigned? negative (whole ++ '.' :: fraction) =
      some (ofRatio negative n (10 ^ fraction.length)) := by
  have hdigits : ∀ c ∈ whole ++ fraction, '0' ≤ c ∧ c ≤ '9' := exists_valueFrom?_iff.mp ⟨n, hvalue⟩
  have hfront : ∀ c ∈ whole, '0' ≤ c ∧ c ≤ '9' := fun c hc => hdigits c (List.mem_append_left _ hc)
  obtain ⟨c, hc⟩ := List.exists_mem_of_ne_nil whole hwhole
  have hne : whole ++ fraction ≠ [] := List.append_ne_nil_of_left_ne_nil hwhole _
  rw [readUnsigned?, if_neg (ne_inf_of_isDigit (List.mem_append_left _ hc) (hfront c hc)),
    span_point hfront]
  simp [valueOf?_eq_valueFrom? hne, hvalue, hwhole, hfraction]

/-- What is written without an exponent is read as the number that it is. -/
theorem readUnsigned?_positional (negative : Bool) (n : Number) :
    ∃ num den : Nat, 0 < den ∧ (num / den : ℚ) = n.value ∧
      readUnsigned? negative (positional n) = some (ofRatio negative num den) := by
  obtain ⟨c, zeros | places⟩ := n
  · have hne : digitsOf c ++ List.replicate zeros '0' ≠ [] :=
      List.append_ne_nil_of_left_ne_nil (digitsOf_ne_nil c) _
    have hvalue :
        valueFrom? 0 (digitsOf c ++ List.replicate zeros '0') = some (c * 10 ^ zeros) := by
      rw [valueFrom?_append, valueFrom?_digitsOf, Option.bind_some, valueFrom?_replicate_zero]
    refine ⟨c * 10 ^ zeros, 1, Nat.one_pos, ?_, readUnsigned?_digits hne hvalue⟩
    rw [Number.value, Int.ofNat_eq_natCast, zpow_natCast]
    push_cast
    rw [div_one]
  · have hmod : c % 10 ^ (places + 1) < 10 ^ (places + 1) := Nat.mod_lt _ (Nat.pow_pos (by decide))
    have hfraction : padded (places + 1) (c % 10 ^ (places + 1)) ≠ [] :=
      List.append_ne_nil_of_right_ne_nil _ (digitsOf_ne_nil _)
    have hread :=
      readUnsigned?_point negative (digitsOf_ne_nil _) hfraction (valueFrom?_split c places)
    rw [length_padded places.succ_pos hmod] at hread
    refine ⟨c, 10 ^ (places + 1), Nat.pow_pos (by decide), ?_, hread⟩
    rw [Number.value, Int.negSucc_eq, zpow_neg]
    push_cast
    rw [div_eq_mul_inv]
    norm_cast

theorem valueFrom?_digitsIn {n : Nat} (h : valueOf? text = some n) :
    digitsIn text = text ∧ valueFrom? 0 text = some n := by
  have hne : text ≠ [] := by
    rintro rfl
    exact nomatch h
  rw [valueOf?_eq_valueFrom? hne] at h
  exact ⟨digitsIn_of_digits (exists_valueFrom?_iff.mp ⟨n, h⟩), h⟩

/-- A text that is read is the name of infinity, or its digits give a number that is divided by a
power of ten. -/
theorem exists_of_readUnsigned? (h : readUnsigned? negative text = some x) :
    x = ofMagnitude negative infinite ∨ ∃ n places : Nat,
      valueFrom? 0 (digitsIn text) = some n ∧ x = ofRatio negative n (10 ^ places) := by
  rw [readUnsigned?] at h
  split at h
  · exact .inl (Option.some.inj h).symm
  · refine .inr ?_
    rw [List.span_eq_takeWhile_dropWhile] at h
    have hsplit := List.takeWhile_append_dropWhile (p := fun c => decide (c ≠ '.')) (l := text)
    split at h
    · next whole hspan =>
      obtain ⟨hwhole, hrest⟩ := Prod.mk.inj hspan
      rw [hwhole, hrest, List.append_nil] at hsplit
      obtain ⟨n, hn, hx⟩ := Option.bind_eq_some_iff.mp h
      obtain ⟨hdigits, hvalue⟩ := valueFrom?_digitsIn hn
      rw [← hsplit, hdigits]
      exact ⟨n, 0, hvalue, (Option.some.inj hx).symm⟩
    · next whole point fraction hspan =>
      obtain ⟨hwhole, hrest⟩ := Prod.mk.inj hspan
      have hpoint : point = '.' := by
        have hhead (hne : text.dropWhile (fun c => decide (c ≠ '.')) ≠ []) :=
          List.head_dropWhile_not (fun c => decide (c ≠ '.')) hne
        simp only [hrest, List.head_cons] at hhead
        simpa using hhead (List.cons_ne_nil _ _)
      rw [hwhole, hrest, hpoint] at hsplit
      obtain ⟨n, hn, hx⟩ := Option.bind_eq_some_iff.mp h
      obtain ⟨hdigits, hvalue⟩ := valueFrom?_digitsIn hn
      split at hx
      · exact nomatch hx
      · rw [← hsplit, digitsIn_point, ← digitsIn_append, hdigits]
        exact ⟨n, fraction.length, hvalue, (Option.some.inj hx).symm⟩

/-! ### Reading what is written -/

/-- The text behind the sign. -/
def unsignedText (x : Binary64) : List Char :=
  if x.isInfinite then "inf".toList else positional (shortest x.magnitude)

theorem toList_text (h : x.isNaN = false) :
    x.text.toList = if x.negative then '-' :: unsignedText x else unsignedText x := by
  rw [text, h, if_neg (by decide), String.toList_ofList]
  rfl

theorem head?_unsignedText_ne (x : Binary64) : (unsignedText x).head? ≠ some '-' := by
  unfold unsignedText
  split
  · decide
  · obtain ⟨n, rest, hdigits⟩ := exists_positional_eq (shortest x.magnitude)
    rw [hdigits, List.head?_append_of_ne_nil _ (digitsOf_ne_nil n)]
    intro hhead
    exact absurd (isDigit_of_mem_digitsOf (List.mem_of_mem_head? hhead)) (by decide)

/-- What is written is read behind its sign. -/
theorem read?_text_eq (h : x.isNaN = false) :
    read? x.text = readUnsigned? x.negative (unsignedText x) := by
  rw [read?, toList_text h]
  cases x.negative with
  | true => rfl
  | false =>
    split
    · next rest heq =>
      have hhead := head?_unsignedText_ne x
      rw [if_neg (by decide)] at heq
      rw [heq] at hhead
      exact absurd rfl hhead
    · rfl

theorem ofRatio_eq {num den : Nat} (hx : x.IsFinite) (hden : 0 < den)
    (hreads : Reads (num / den : ℚ) x.magnitude) : ofRatio x.negative num den = x := by
  have hnearest : nearest num den = x.magnitude := by
    refine RoundsTo.unique (roundsTo_nearest (K := ℚ) hden) ?_
    rw [mul_div_right_comm]
    exact hreads
  obtain ⟨negative, magnitude, hlt⟩ := x
  have hle : min magnitude infinite = magnitude := Nat.min_eq_left (Nat.le_of_lt hx)
  simp only [ofRatio, ofMagnitude, hnearest, hle]

/-- What is written is read, bit for bit. -/
theorem read?_text (h : x.isNaN = false) : read? x.text = some x := by
  rw [read?_text_eq h, unsignedText]
  split
  · next hinfinite =>
    rw [readUnsigned?, if_pos rfl, ofMagnitude_infinite hinfinite]
  · next hnot =>
    have hfinite : x.IsFinite := (isFinite_or_isInfinite h).resolve_right hnot
    obtain ⟨num, den, hden, hvalue, hread⟩ :=
      readUnsigned?_positional x.negative (shortest x.magnitude)
    have hreads := reads_shortest hfinite
    rw [← hvalue] at hreads
    rw [hread, ofRatio_eq hfinite hden hreads]

theorem text_injective (hx : x.isNaN = false) (hy : y.isNaN = false) (h : x.text = y.text) :
    x = y := by
  have hread := read?_text hx
  rwa [h, read?_text hy, Option.some.injEq, eq_comm] at hread

/-! ### The form of what is written -/

/-- Behind the sign stands the name of infinity or a number without an exponent. -/
theorem unsignedText_cases (h : x.isNaN = false) (hzero : x.magnitude ≠ 0) :
    x.isInfinite = true ∧ unsignedText x = "inf".toList ∨
      x.IsFinite ∧ IsPositional (unsignedText x) := by
  rcases isFinite_or_isInfinite h with hfinite | hinfinite
  · refine .inr ⟨hfinite, ?_⟩
    rw [unsignedText, hfinite.isInfinite_eq_false, if_neg (by decide)]
    exact isPositional_positional ((isCoarsest_shortest hzero hfinite).coefficient_ne_zero hzero)
  · exact .inl ⟨hinfinite, if_pos hinfinite⟩

/-! ### The fewest digits -/

theorem significantDigits_text (h : x.isNaN = false) :
    significantDigits x.text.toList = significantDigits (unsignedText x) := by
  rw [toList_text h]
  split <;> rfl

theorem significantDigits_zero : significantDigits (positional (shortest 0)) = [] := by
  have hzero : positional (shortest 0) = ['0'] := by
    rw [shortest, if_pos rfl]
    exact congrArg (· ++ []) (digitsOf_of_lt (by decide))
  rw [hzero]
  rfl

theorem exists_readUnsigned? {s : String} (h : read? s = some x) : ∃ negative text,
    readUnsigned? negative text = some x ∧
      significantDigits s.toList = significantDigits text := by
  rw [read?] at h
  split at h
  · next rest htext => exact ⟨true, rest, h, by rw [htext]; rfl⟩
  · exact ⟨false, s.toList, h, rfl⟩

theorem reads_of_ofRatio_eq {num den : Nat} (hx : x.IsFinite) (hden : 0 < den)
    (h : ofRatio negative num den = x) : Reads (num / den : ℚ) x.magnitude := by
  have hmagnitude : min (nearest num den) infinite = x.magnitude := congrArg magnitude h
  have hfinite : x.magnitude < infinite := hx
  have hnearest : nearest num den = x.magnitude := by omega
  rw [Reads, ← hnearest, ← mul_div_right_comm]
  exact roundsTo_nearest hden

theorem isNaN_ofMagnitude (negative : Bool) (m : Nat) : (ofMagnitude negative m).isNaN = false :=
  decide_eq_false (Nat.not_lt.mpr (Nat.min_le_right _ _))

/-- A text that reads as a double has no fewer significant digits than the double's text. -/
theorem length_significantDigits_text_le {s : String} (h : read? s = some x) :
    (significantDigits x.text.toList).length ≤ (significantDigits s.toList).length := by
  obtain ⟨negative, text, hread, hs⟩ := exists_readUnsigned? h
  have hcases := exists_of_readUnsigned? hread
  have hnan : x.isNaN = false := by
    rcases hcases with rfl | ⟨n, places, -, rfl⟩ <;> exact isNaN_ofMagnitude _ _
  rw [significantDigits_text hnan, hs, unsignedText]
  rcases isFinite_or_isInfinite hnan with hfinite | hinfinite
  · rw [hfinite.isInfinite_eq_false, if_neg (by decide)]
    by_cases hzero : x.magnitude = 0
    · rw [hzero, significantDigits_zero]
      exact Nat.zero_le _
    · have hcoarsest := isCoarsest_shortest hzero hfinite
      refine (length_significantDigits_positional (hcoarsest.coefficient_ne_zero hzero)).trans ?_
      rcases hcases with hx | ⟨n, places, hvalue, hx⟩
      · have hmagnitude : x.magnitude = infinite := by rw [hx]; rfl
        exact absurd hfinite (Nat.not_lt.mpr hmagnitude.ge)
      · -- the digits read give a number on some grid, with as many digits as are significant
        obtain ⟨v, back, hv, rfl⟩ := exists_significant hvalue
        have hreads := reads_of_ofRatio_eq hfinite (Nat.pow_pos (by decide)) hx.symm
        have hgrid : ((v * 10 ^ back : Nat) / (10 ^ places : Nat) : ℚ) =
            v * 10 ^ ((back : ℤ) - places) := by
          rw [zpow_sub₀ (by norm_num), zpow_natCast, zpow_natCast]
          push_cast
          ring
        rw [hgrid] at hreads
        exact hcoarsest.length_le hzero hv hreads
  · rw [hinfinite, if_pos rfl]
    exact Nat.zero_le _

end Binary64

end LinearLight
