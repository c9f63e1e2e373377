import LinearLight.Proofs.Quantize

/-!
# The tie between the two tables

The 8-bit entry of a code is tied to the 16-bit one if it is its high byte. Deriving the 8-bit table
ties every code, and does nothing where the tie holds; an assignment leaves every other code as it
is.

## Main definitions

- `Tables.Tied`: the 8-bit entry of a code is the high byte of the 16-bit one

## Main statements

- `Tables.tied_ofLinear16`, `Tables.tied_set16_iff`, `Tables.tied_set8_iff`: what ties and what
  keeps a tie
- `Tables.lookup8_rederive_eq_iff`, `Tables.eq_rederive_iff`, `Tables.eq_self_rederive_iff`: what
  deriving anew does
-/

namespace LinearLight.Tables

variable {s t : Tables} {u v : UInt8}

/-- The 8-bit entry of a code is the 16-bit one shifted by 8. -/
def Tied (t : Tables) (v : UInt8) : Prop := (t.lookup8 v).toUInt16 = t.lookup16 v >>> 8

instance : Decidable (t.Tied v) := inferInstanceAs (Decidable (_ = _))

/-! ### Entries -/

theorem lookup16_set16_of_ne (h : v ≠ u) (entry : UInt16) :
    (t.set16 u entry).lookup16 v = t.lookup16 v :=
  Vector.getElem_set_ne u.toNat_lt v.toNat_lt fun e => h (UInt8.toNat_inj.mp e).symm

theorem lookup8_set8_of_ne (h : v ≠ u) (entry : UInt8) :
    (t.set8 u entry).lookup8 v = t.lookup8 v :=
  Vector.getElem_set_ne u.toNat_lt v.toNat_lt fun e => h (UInt8.toNat_inj.mp e).symm

theorem lookup8_ofLinear16 (linear16 : Vector UInt16 256) (v : UInt8) :
    (ofLinear16 linear16).lookup8 v = highByte ((ofLinear16 linear16).lookup16 v) :=
  Vector.getElem_map highByte v.toNat_lt

theorem lookup8_rederive (t : Tables) (v : UInt8) :
    t.rederive.lookup8 v = highByte (t.lookup16 v) :=
  lookup8_ofLinear16 t.linear16 v

/-- Tables are the same if the 16-bit tables are and all 8-bit entries are. -/
theorem eq_of_lookup8 (h16 : s.linear16 = t.linear16) (h8 : ∀ v, s.lookup8 v = t.lookup8 v) :
    s = t := by
  have hlinear8 : s.linear8 = t.linear8 := by
    apply Vector.ext
    intro i hi
    exact h8 (UInt8.ofNatLT i hi)
  cases s
  cases t
  rw [mk.injEq]
  exact ⟨h16, hlinear8⟩

/-! ### What ties and what keeps a tie -/

theorem tied_iff : t.Tied v ↔ t.lookup8 v = highByte (t.lookup16 v) := by
  rw [Tied, ← UInt16.toNat_inj, ← UInt8.toNat_inj, toNat_highByte, UInt8.toNat_toUInt16,
    UInt16.toNat_shiftRight, Nat.shiftRight_eq_div_pow]
  rfl

theorem tied_ofLinear16 (linear16 : Vector UInt16 256) (v : UInt8) :
    (ofLinear16 linear16).Tied v :=
  tied_iff.mpr (lookup8_ofLinear16 linear16 v)

theorem tied_zero (v : UInt8) : zero.Tied v := by
  have h16 : zero.lookup16 v = 0 := Vector.getElem_replicate v.toNat_lt
  have h8 : zero.lookup8 v = 0 := Vector.getElem_replicate v.toNat_lt
  rw [Tied, h16, h8]
  rfl

theorem tied_set16_iff (h : v ≠ u) (entry : UInt16) : (t.set16 u entry).Tied v ↔ t.Tied v := by
  rw [Tied, Tied, lookup16_set16_of_ne h]
  rfl

theorem tied_set8_iff (h : v ≠ u) (entry : UInt8) : (t.set8 u entry).Tied v ↔ t.Tied v := by
  rw [Tied, Tied, lookup8_set8_of_ne h]
  rfl

/-! ### Deriving anew -/

/-- The 8-bit entry stays exactly where the tie holds. -/
theorem lookup8_rederive_eq_iff : t.rederive.lookup8 v = t.lookup8 v ↔ t.Tied v := by
  rw [tied_iff, lookup8_rederive]
  exact eq_comm

/-- There are no other tables with this 16-bit table and with every code tied. -/
theorem eq_rederive_iff : s = t.rederive ↔ s.linear16 = t.linear16 ∧ ∀ v, s.Tied v := by
  constructor
  · rintro rfl
    exact ⟨rfl, tied_ofLinear16 t.linear16⟩
  · rintro ⟨h16, htied⟩
    refine eq_of_lookup8 h16 fun v => ?_
    have hlookup16 : s.lookup16 v = t.lookup16 v := congrArg (Vector.get · v.toFin) h16
    calc s.lookup8 v = highByte (s.lookup16 v) := tied_iff.mp (htied v)
      _ = highByte (t.lookup16 v) := congrArg highByte hlookup16
      _ = t.rederive.lookup8 v := (lookup8_rederive t v).symm

theorem eq_self_rederive_iff : t = t.rederive ↔ ∀ v, t.Tied v := by
  rw [eq_rederive_iff]
  exact and_iff_right rfl

end LinearLight.Tables
