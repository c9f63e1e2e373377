import LinearLight.Proofs.Tables.Tie
import LinearLight.Tables.Workspace
import Mathlib.Data.List.Basic

/-!
# What a workspace has behind it

The tables of a workspace, the current ones and every copy, are what the edits behind them make of
tables that are all zero. A copy that is loaded brings the edits along that were behind it when it
was saved. So at a code that none of these edits has assigned since tables were last derived, the
two tables are tied.

## Main definitions

- `Edit.lineage`: the edits behind the current tables, or behind a copy
- `Edit.replay`: what edits make of tables that are all zero
- `Edit.assignedCodes`: the codes assigned since the last derivation
- `Edit.LoadsSaved`: only copies that were saved are loaded
- `Workspace.tables?`: the current tables, or a copy

## Main statements

- `Workspace.isSome_afterAll?_iff`: which edits can be made
- `Workspace.eq_replay`: the tables are the replay of the edits behind them
- `Edit.tied_replay`: where a replay is tied
- `Workspace.tables_stay_tied`: the whole
-/

namespace LinearLight

/-- The tables after a change to them. Putting copies aside does not change them. -/
def Tables.after (t : Tables) : Edit → Tables
  | .build => ofCurve
  | .fromLinear16 linear16 => ofLinear16 linear16
  | .rederive => t.rederive
  | .set16 v entry => t.set16 v entry
  | .set8 v entry => t.set8 v entry
  | .save _ => t
  | .load _ => t

namespace Edit

/-- The 8-bit table is made from the 16-bit one. -/
def derives : Edit → Bool
  | build => true
  | fromLinear16 _ => true
  | rederive => true
  | _ => false

/-- The code of which an entry is assigned, in either table. -/
def assigned? : Edit → Option UInt8
  | set16 v _ => some v
  | set8 v _ => some v
  | _ => none

def saves (name : String) : Edit → Bool
  | save other => other = name
  | _ => false

/-- Of all edits, the latest first, those behind the current tables, or behind the copy of a name. A
copy has behind it what was behind the current tables when it was saved last: going back from where
it is loaded, all edits up to there are passed over. -/
def lineage : Option String → List Edit → List Edit
  | _, [] => []
  | none, load name :: earlier => lineage (some name) earlier
  | none, e :: earlier => e :: lineage none earlier
  | some name, e :: earlier =>
    if e.saves name then lineage none earlier else lineage (some name) earlier

/-- What edits, the latest first, make of tables that are all zero. -/
def replay (edits : List Edit) : Tables := edits.foldr (fun e t => t.after e) .zero

/-- The codes that edits, the latest first, have assigned since tables were last derived. -/
def assignedCodes (edits : List Edit) : List UInt8 :=
  (edits.takeWhile fun e => !e.derives).filterMap assigned?

/-- A copy is loaded only after it was saved. -/
def LoadsSaved (edits : List Edit) : Prop :=
  ∀ earlier name, earlier ++ [load name] <+: edits → save name ∈ earlier

end Edit

variable {edits : List Edit} {e : Edit} {name : String} {v : UInt8}

/-! ### Which edits can be made -/

namespace Edit

theorem saves_iff : e.saves name ↔ e = save name := by
  cases e <;> simp [saves]

theorem loadsSaved_concat_iff :
    LoadsSaved (edits ++ [e]) ↔ LoadsSaved edits ∧ ∀ name, e = load name → save name ∈ edits := by
  -- what ends in a loading is the whole, or begins the edits before the last
  simp only [LoadsSaved, List.prefix_concat_iff]
  constructor
  · intro h
    refine ⟨fun earlier name hearlier => h earlier name (.inr hearlier), ?_⟩
    rintro name rfl
    exact h edits name (.inl rfl)
  · rintro ⟨hedits, hlast⟩ earlier name (heq | hearlier)
    · obtain ⟨rfl, hload⟩ := List.append_inj' heq rfl
      exact hlast name (List.singleton_inj.mp hload).symm
    · exact hedits earlier name hearlier

end Edit

namespace Workspace

variable {w w' : Workspace}

theorem afterAll?_concat (w : Workspace) (edits : List Edit) (e : Edit) :
    w.afterAll? (edits ++ [e]) = (w.afterAll? edits).bind (·.after? e) := by
  rw [afterAll?, List.foldlM_append]
  simp [afterAll?]

theorem isSome_after?_iff :
    (w.after? e).isSome ↔ ∀ name, e = .load name → (w.saved? name).isSome := by
  cases e <;> simp [after?]

/-- What an edit does to a copy. -/
theorem saved?_after (h : w.after? e = some w') (name : String) :
    w'.saved? name = if e.saves name then some w.current else w.saved? name := by
  cases e with
  | save other =>
    cases h
    by_cases hname : other = name
    · simp [saved?, Edit.saves, hname]
    · simp [saved?, Edit.saves, hname, List.lookup_cons, beq_eq_false_iff_ne.mpr (Ne.symm hname)]
  | load other =>
    obtain ⟨t, -, rfl⟩ := Option.map_eq_some_iff.mp h
    rfl
  | _ =>
    rw [← Option.some.inj h]
    rfl

/-- There is a copy under a name once one was saved under it. -/
theorem isSome_saved?_iff (h : afterAll? {} edits = some w) :
    (w.saved? name).isSome ↔ .save name ∈ edits := by
  induction edits using List.reverseRecOn generalizing w with
  | nil =>
    cases h
    simp [saved?]
  | append_singleton edits e ih =>
    rw [afterAll?_concat] at h
    obtain ⟨before, hbefore, hlast⟩ := Option.bind_eq_some_iff.mp h
    rw [saved?_after hlast, List.mem_append, List.mem_singleton, ← ih hbefore, eq_comm (b := e),
      ← Edit.saves_iff]
    by_cases hsaves : e.saves name <;> simp [hsaves]

theorem isSome_afterAll?_iff : (afterAll? {} edits).isSome ↔ Edit.LoadsSaved edits := by
  induction edits using List.reverseRecOn with
  | nil => simp [afterAll?, Edit.LoadsSaved]
  | append_singleton edits e ih =>
    rw [afterAll?_concat, Edit.loadsSaved_concat_iff, ← ih]
    cases h : afterAll? {} edits with
    | none => simp
    | some w => simp [isSome_after?_iff, isSome_saved?_iff h]

end Workspace

/-! ### What the tables have behind them -/

namespace Edit

theorem lineage_none_cons (he : ∀ name, e ≠ load name) (earlier : List Edit) :
    lineage none (e :: earlier) = e :: lineage none earlier := by
  cases e with
  | load name => exact absurd rfl (he name)
  | _ => rfl

theorem replay_cons (e : Edit) (earlier : List Edit) :
    replay (e :: earlier) = (replay earlier).after e := rfl

end Edit

namespace Workspace

variable {w w' : Workspace}

/-- The current tables, or the copy of a name. -/
def tables? (w : Workspace) : Option String → Option Tables
  | none => some w.current
  | some name => w.saved? name

/-- What an edit does to the current tables, unless it loads others. -/
theorem current_after (he : ∀ name, e ≠ .load name) (h : w.after? e = some w') :
    w'.current = w.current.after e := by
  cases e with
  | load name => exact absurd rfl (he name)
  | _ =>
    rw [← Option.some.inj h]
    rfl

theorem saved?_of_load (h : w.after? (.load name) = some w') :
    w.saved? name = some w'.current := by
  obtain ⟨t, ht, rfl⟩ := Option.map_eq_some_iff.mp h
  exact ht

/-- The tables are the replay of the edits behind them: the current ones and every copy. -/
theorem eq_replay (h : afterAll? {} edits = some w) (copy : Option String) {t : Tables}
    (ht : w.tables? copy = some t) : t = Edit.replay (Edit.lineage copy edits.reverse) := by
  -- for the current tables and all copies at once: loading goes over from the one to the other
  induction edits using List.reverseRecOn generalizing w copy t with
  | nil =>
    cases h
    cases copy with
    | none => exact (Option.some.inj ht).symm
    | some name => cases ht
  | append_singleton edits e ih =>
    rw [afterAll?_concat] at h
    obtain ⟨before, hbefore, hlast⟩ := Option.bind_eq_some_iff.mp h
    rw [List.reverse_concat]
    cases copy with
    | none =>
      cases ht
      by_cases hload : ∃ name, e = .load name
      · obtain ⟨name, rfl⟩ := hload
        exact ih hbefore (some name) (saved?_of_load hlast)
      · have hcurrent := ih hbefore none rfl
        rw [not_exists] at hload
        rw [current_after hload hlast, Edit.lineage_none_cons hload, Edit.replay_cons, ← hcurrent]
    | some name =>
      rw [tables?, saved?_after hlast] at ht
      rw [Edit.lineage]
      by_cases hsaves : e.saves name
      · rw [if_pos hsaves] at ht ⊢
        exact ih hbefore none ht
      · rw [if_neg hsaves] at ht ⊢
        exact ih hbefore (some name) ht

end Workspace

/-! ### Where the tables are tied -/

theorem Tables.tied_after_of_derives (h : e.derives) (t : Tables) (v : UInt8) :
    (t.after e).Tied v := by
  cases e with
  | build => exact tied_ofLinear16 _ v
  | fromLinear16 linear16 => exact tied_ofLinear16 linear16 v
  | rederive => exact tied_ofLinear16 t.linear16 v
  | _ => cases h

theorem Tables.Tied.after {t : Tables} (h : t.Tied v) (he : e.assigned? ≠ some v) :
    (t.after e).Tied v := by
  cases e with
  | set16 u entry => exact (tied_set16_iff (fun hv => he (congrArg some hv.symm)) entry).mpr h
  | set8 u entry => exact (tied_set8_iff (fun hv => he (congrArg some hv.symm)) entry).mpr h
  | build => exact tied_after_of_derives rfl t v
  | fromLinear16 linear16 => exact tied_after_of_derives rfl t v
  | rederive => exact tied_after_of_derives rfl t v
  | _ => exact h

namespace Edit

theorem assignedCodes_cons (he : e.derives = false) (earlier : List Edit) :
    assignedCodes (e :: earlier) = e.assigned?.toList ++ assignedCodes earlier := by
  rw [assignedCodes, List.takeWhile_cons, he, assignedCodes]
  cases h : e.assigned? <;> simp [h]

/-- A replay is tied at every code that was not assigned since the last derivation. -/
theorem tied_replay (h : v ∉ assignedCodes edits) : (replay edits).Tied v := by
  induction edits with
  | nil => exact Tables.tied_zero v
  | cons e earlier ih =>
    rw [replay_cons]
    cases he : e.derives with
    | true => exact Tables.tied_after_of_derives he _ v
    | false =>
      rw [assignedCodes_cons he, List.mem_append, not_or, Option.mem_toList] at h
      obtain ⟨hlast, hearlier⟩ := h
      exact (ih hearlier).after hlast

end Edit

/-! ### The whole -/

namespace Workspace

/-- Edits can be made if only copies that were saved are loaded. The current tables are then what
the edits behind them make, and are tied at every code that none of these has assigned since tables
were last derived. Deriving anew changes the 8-bit table exactly at the codes that are not tied; it
does nothing the second time, and gives the only tables with this 16-bit table that are tied
everywhere: the same as before exactly if these were. -/
theorem tables_stay_tied :
    (∀ edits : List Edit, (afterAll? {} edits).isSome ↔ Edit.LoadsSaved edits) ∧
    (∀ (edits : List Edit) (w : Workspace), afterAll? {} edits = some w →
      w.current = Edit.replay (Edit.lineage none edits.reverse) ∧
      ∀ v : UInt8, v ∉ Edit.assignedCodes (Edit.lineage none edits.reverse) → w.current.Tied v) ∧
    ∀ t : Tables,
      t.rederive.linear16 = t.linear16 ∧
      (∀ v : UInt8, t.rederive.lookup8 v ≠ t.lookup8 v ↔ ¬t.Tied v) ∧
      t.rederive.rederive = t.rederive ∧
      (∀ s : Tables, s = t.rederive ↔ s.linear16 = t.linear16 ∧ ∀ v : UInt8, s.Tied v) ∧
      (t = t.rederive ↔ ∀ v : UInt8, t.Tied v) := by
  refine ⟨fun _ => isSome_afterAll?_iff, fun edits w h => ?_, fun t => ?_⟩
  · have hreplay : w.current = Edit.replay (Edit.lineage none edits.reverse) := eq_replay h none rfl
    refine ⟨hreplay, fun v hv => ?_⟩
    rw [hreplay]
    exact Edit.tied_replay hv
  · exact ⟨rfl, fun _ => not_congr Tables.lookup8_rederive_eq_iff, rfl,
      fun _ => Tables.eq_rederive_iff, Tables.eq_self_rederive_iff⟩

/-- Even tables of which one 16-bit entry was assigned. -/
def unevenTables : Tables := (Tables.ofLinear16 (.replicate 256 0x1234)).set16 1 0x80FF

/-- The uneven tables, with changes to other tables between saving and loading them. -/
def unevenEdits : List Edit :=
  [.fromLinear16 (.replicate 256 0x1234), .set16 1 0x80FF, .save "uneven", .build, .set8 2 7,
    .load "uneven"]

/-- Code 2 was assigned, but not in the tables that are loaded: it is tied, and code 1 is not. -/
theorem tables_stay_tied_of_uneven :
    afterAll? {} unevenEdits = some ⟨unevenTables, [("uneven", unevenTables)]⟩ ∧
      2 ∉ Edit.assignedCodes (Edit.lineage none unevenEdits.reverse) ∧ unevenTables.Tied 2 ∧
      1 ∈ Edit.assignedCodes (Edit.lineage none unevenEdits.reverse) ∧ ¬unevenTables.Tied 1 := by
  have hrun : afterAll? {} unevenEdits = some ⟨unevenTables, [("uneven", unevenTables)]⟩ := rfl
  have hcode : 2 ∉ Edit.assignedCodes (Edit.lineage none unevenEdits.reverse) := by decide
  obtain ⟨-, hedits, -⟩ := tables_stay_tied
  exact ⟨hrun, hcode, (hedits _ _ hrun).2 2 hcode, by decide, by decide +kernel⟩

end Workspace

end LinearLight
