import LinearLight.Proofs.Binary64.Order
import LinearLight.Proofs.Quantize

/-!
# The pipeline keeps order

Each stage between a display value and its entries keeps the order of numbers: the power, the
scaling up, the whole part and the high byte. So results are ordered as the numbers they belong to,
infinities included where the stage takes them, and the tables of the curve never fall.

## Main definitions

- `Sample.NotAbove`: both results are no larger than those of another sample

## Main statements

- `quantize_le_quantize`, `intensity_le_intensity`: two stages
- `Tables.ofDisplay_gridPoint`: an entry is the sample of its grid point
- `pipeline_monotone`: the whole
-/

namespace LinearLight

open Binary64

variable {a b x y : Binary64}

/-- Both results are no larger than those of another sample. -/
def Sample.NotAbove (first second : Sample) : Prop :=
  first.linear16 ≤ second.linear16 ∧ first.linear8 ≤ second.linear8

/-! ### From intensities to results -/

theorem scaledUp_le_scaledUp (h : a.le b = true) : (scaledUp a).le (scaledUp b) = true := by
  obtain ⟨hfactor, hvalue⟩ := value_65535
  obtain ⟨hhalf, -⟩ := value_half
  have hpos : 0 < (ofNat 65535).value ℚ := by
    rw [hvalue]
    norm_num
  have hproduct := (roundsMonotone_mul hfactor hpos).le h
  exact (roundsMonotone_add hhalf).le hproduct

theorem quantize_le_quantize (h : a.le b = true) : quantize a ≤ quantize b := by
  have hle := truncate_le_truncate (scaledUp_le_scaledUp h) 65535
  have htop : (scaledUp b).truncate 65535 ≤ 65535 := by
    unfold truncate
    split
    · exact Nat.zero_le _
    · exact Nat.min_le_right _ _
  rw [quantize, quantize, UInt16.le_iff_toNat_le, UInt16.toNat_ofNat', UInt16.toNat_ofNat']
  omega

theorem highByte_le_highByte {v w : UInt16} (h : v ≤ w) : highByte v ≤ highByte w := by
  rw [UInt8.le_iff_toNat_le, toNat_highByte, toNat_highByte]
  exact Nat.div_le_div_right (UInt16.le_iff_toNat_le.mp h)

/-- The sample of an intensity. -/
theorem notAbove_of_le (h : a.le b = true) :
    Sample.NotAbove ⟨quantize a, highByte (quantize a)⟩ ⟨quantize b, highByte (quantize b)⟩ :=
  ⟨quantize_le_quantize h, highByte_le_highByte (quantize_le_quantize h)⟩

/-! ### From display values to intensities -/

/-- The power keeps order, and so does its rounding. -/
theorem intensity_le_intensity (hx : inRange x = true) (hy : inRange y = true)
    (h : x.le y = true) : (intensity x).le (intensity y) = true := by
  obtain ⟨hxfinite, hzero, -⟩ := (inRange_iff ℝ).mp hx
  obtain ⟨hyfinite, -, -⟩ := (inRange_iff ℝ).mp hy
  have hvalue : x.value ℝ ≤ y.value ℝ := (le_iff ℝ hxfinite hyfinite).mp h
  have hpower : x.value ℝ ^ gamma.value ℝ ≤ y.value ℝ ^ gamma.value ℝ :=
    Real.rpow_le_rpow hzero hvalue gamma_pos.le
  have hroundx := rounds_intensity hx
  have hroundy := rounds_intensity hy
  exact le_eq_true_iff.mpr
    ⟨hroundx.isNaN_eq_false, hroundy.isNaN_eq_false, hroundx.rank_le hroundy hpower⟩

theorem ofDisplay_of_inRange (h : inRange x = true) :
    Sample.ofDisplay x = .ok ⟨quantize (intensity x), highByte (quantize (intensity x))⟩ := by
  simp only [Sample.ofDisplay, decode, h, if_true]
  rfl

/-! ### The tables -/

namespace Tables

theorem value_ofNat {n : Nat} (hn : n < 0x20000000000000) :
    (ofNat n).IsFinite ∧ (ofNat n).value ℚ = n := by
  obtain ⟨hfinite, hvalue⟩ := value_ofRatio (K := ℚ) (k := 0) hn (by decide)
  exact ⟨hfinite, hvalue.trans (by rw [pow_zero, div_one])⟩

theorem rounds_gridPoint {code : Nat} (h : code ≤ 255) :
    Rounds (code / 255 : ℚ) (gridPoint code) := by
  obtain ⟨hcode, hvalue⟩ := value_ofNat (show code < 0x20000000000000 by omega)
  obtain ⟨hscale, htop⟩ := value_ofNat (n := 255) (by decide)
  have hround := rounds_div (K := ℚ) hcode hscale (by rw [htop]; norm_num)
  rw [hvalue, htop] at hround
  exact_mod_cast hround

theorem gridPoint_le_gridPoint {i j : Nat} (hij : i ≤ j) (hj : j ≤ 255) :
    (gridPoint i).le (gridPoint j) = true := by
  have hi := rounds_gridPoint (hij.trans hj)
  have hj := rounds_gridPoint hj
  have hle : (i / 255 : ℚ) ≤ j / 255 := by gcongr
  exact le_eq_true_iff.mpr ⟨hi.isNaN_eq_false, hj.isNaN_eq_false, hi.rank_le hj hle⟩

/-- No grid point is refused. -/
theorem inRange_gridPoint {code : Nat} (h : code ≤ 255) : inRange (gridPoint code) = true := by
  have hzero : (0 : ℚ) ≤ code / 255 := by positivity
  have hone : (code / 255 : ℚ) ≤ 1 := by
    rw [div_le_one (by norm_num)]
    exact_mod_cast h
  have hmem := (rounds_gridPoint h).value_mem isFinite_zero isFinite_one hzero
    (by rwa [value_zero]) (by rwa [value_one])
  rw [value_zero, value_one] at hmem
  exact (inRange_iff ℚ).mpr hmem

/-- An entry of the tables of the curve is the sample of its grid point. -/
theorem ofDisplay_gridPoint (v : UInt8) :
    Sample.ofDisplay (gridPoint v.toNat) = .ok ⟨ofCurve.lookup16 v, ofCurve.lookup8 v⟩ := by
  rw [ofDisplay_of_inRange (inRange_gridPoint (Nat.le_of_lt_succ v.toNat_lt))]
  have hlookup16 : ofCurve.lookup16 v = quantize (intensity (gridPoint v.toNat)) :=
    Vector.getElem_ofFn v.toNat_lt
  have hlookup8 : ofCurve.lookup8 v = highByte (ofCurve.lookup16 v) :=
    Vector.getElem_map highByte v.toNat_lt
  rw [hlookup8, hlookup16]

end Tables

/-! ### The whole -/

/-- Results are ordered as the numbers are that they belong to: those of intensities, of any numbers
at all, and those of display values, with the intensities between them. So the tables of the curve,
whose entries are the results for the grid points, never fall. -/
theorem pipeline_monotone :
    (∀ a b : Binary64, a.le b = true →
      quantize a ≤ quantize b ∧ highByte (quantize a) ≤ highByte (quantize b)) ∧
    (∀ x y s t : Binary64, x.le y = true → decode x = .ok s → decode y = .ok t →
      s.le t = true ∧ inRange s = true ∧ inRange t = true ∧
      ∃ first second, Sample.ofDisplay x = .ok first ∧ Sample.ofDisplay y = .ok second ∧
        first.NotAbove second) ∧
    (∀ v w : UInt8, v ≤ w →
      Tables.ofCurve.lookup16 v ≤ Tables.ofCurve.lookup16 w ∧
      Tables.ofCurve.lookup8 v ≤ Tables.ofCurve.lookup8 w) := by
  have hdisplay {x y : Binary64} (hx : inRange x = true) (hy : inRange y = true)
      (h : x.le y = true) {first second : Sample} (hfirst : Sample.ofDisplay x = .ok first)
      (hsecond : Sample.ofDisplay y = .ok second) : first.NotAbove second := by
    rw [ofDisplay_of_inRange hx, Except.ok.injEq] at hfirst
    rw [ofDisplay_of_inRange hy, Except.ok.injEq] at hsecond
    rw [← hfirst, ← hsecond]
    exact notAbove_of_le (intensity_le_intensity hx hy h)
  refine ⟨fun a b h => notAbove_of_le h, fun x y s t h hs ht => ?_, fun v w h => ?_⟩
  · obtain ⟨hx, rfl⟩ := decode_eq_ok_iff.mp hs
    obtain ⟨hy, rfl⟩ := decode_eq_ok_iff.mp ht
    have hfirst := ofDisplay_of_inRange hx
    have hsecond := ofDisplay_of_inRange hy
    exact ⟨intensity_le_intensity hx hy h, inRange_intensity hx, inRange_intensity hy,
      _, _, hfirst, hsecond, hdisplay hx hy h hfirst hsecond⟩
  · have hv : v.toNat ≤ 255 := Nat.le_of_lt_succ v.toNat_lt
    have hw : w.toNat ≤ 255 := Nat.le_of_lt_succ w.toNat_lt
    have hgrid := Tables.gridPoint_le_gridPoint (UInt8.le_iff_toNat_le.mp h) hw
    have hentries := hdisplay (Tables.inRange_gridPoint hv) (Tables.inRange_gridPoint hw) hgrid
      (Tables.ofDisplay_gridPoint v) (Tables.ofDisplay_gridPoint w)
    exact ⟨hentries.1, hentries.2⟩

/-- The least number against the least positive one, negative zero against a grey, and two codes. -/
theorem pipeline_monotone_of_grey :
    (ofBits 0xFFF0000000000000).le (ofBits 1) = true ∧
      quantize (ofBits 0xFFF0000000000000) ≤ quantize (ofBits 1) ∧
    (ofBits 0x8000000000000000).le (Tables.gridPoint 188) = true ∧
      decode (ofBits 0x8000000000000000) = .ok zero ∧
      decode (Tables.gridPoint 188) = .ok (ofBits 0x3FE05D5EF56B66B7) ∧
      zero.le (ofBits 0x3FE05D5EF56B66B7) = true ∧
    (3 : UInt8) ≤ 200 ∧ Tables.ofCurve.lookup16 3 ≤ Tables.ofCurve.lookup16 200 := by
  have hleast : (ofBits 0xFFF0000000000000).le (ofBits 1) = true := by decide +kernel
  have hgrid : (ofBits 0x8000000000000000).le (Tables.gridPoint 188) = true := by decide +kernel
  have hzero : decode (ofBits 0x8000000000000000) = .ok zero := by decide +kernel
  have hgrey : decode (Tables.gridPoint 188) = .ok (ofBits 0x3FE05D5EF56B66B7) := by
    decide +kernel
  have hcodes : (3 : UInt8) ≤ 200 := by decide
  obtain ⟨hintensities, hdisplay, htables⟩ := pipeline_monotone
  exact ⟨hleast, (hintensities _ _ hleast).1, hgrid, hzero, hgrey,
    (hdisplay _ _ _ _ hgrid hzero hgrey).1, hcodes, (htables _ _ hcodes).1⟩

end LinearLight
