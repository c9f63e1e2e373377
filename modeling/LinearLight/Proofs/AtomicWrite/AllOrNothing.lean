import Mathlib
import LinearLight.Proofs.AtomicWrite.Steps
import LinearLight.Proofs.FileTree.Arrangement
import LinearLight.Proofs.FileTree.Placement

/-!
# A write replaces one entry or changes nothing

A write that has the tree for itself leaves it in one of three ways: as it was, with the staging
file placed in it, or with the complete file placed under the entry that its path named. The
staging file is always the newest node, so each call keeps this: a changed file might have been
placed as changed, a moved one where it is, and one taken away leaves no trace.

## Main definitions

- `AtomicWrite.Undisturbed`: the tree in each stage of a write that is alone
- `FileTree.Sound.saved`: the tree that such a write leaves

## Main statements

- `AtomicWrite.Undisturbed.moves`: every call keeps it
- `AtomicWrite.run_all_or_nothing`: a write that succeeds has replaced the entry that its path named
  by a complete file, and one that fails leaves the tree that it found
-/

namespace LinearLight

namespace AtomicWrite

variable {t : FileTree.Sound} {now after : FileTree} {w : AtomicWrite}

/-- What has become of a tree at some stage of a write that is alone on it. -/
inductive Undisturbed (t : FileTree) (w : AtomicWrite) : FileTree → Prop where
  | untouched (hstaging : w.stage.staging? = none) (hresult : w.stage ≠ .finished (.ok ())) :
      Undisturbed t w t
  | staged {staging f} (hstaging : w.stage.staging? = some staging) (hfile : staging.file = t.fresh)
      (hdirectory : t.resolveDirectory w.path.stagingDirectory = .ok staging.directory)
      (hunused : t.entry? staging.directory staging.name = none)
      (hholds : w.stage.Holds w.contents f) :
      Undisturbed t w (t.place staging.directory staging.name (.file f))
  | saved {d name} (hresult : w.stage = .finished (.ok ()))
      (hentry : t.namedEntry? w.path = some (d, name))
      (htarget : t.renameTarget w.path = .ok (d, name)) :
      Undisturbed t w (t.place d name (.file ⟨w.contents, writtenMode, true⟩))

namespace Undisturbed

theorem begun (hstage : w.stage = .creating) : Undisturbed t w t :=
  .untouched (by rw [hstage]; rfl) (by simp [hstage])

theorem eq_of_creating (h : Undisturbed t w now) (hstage : w.stage = .creating) : now = t := by
  cases h with
  | untouched => rfl
  | staged hstaging => simp [hstage, Stage.staging?] at hstaging
  | saved hresult => simp [hstage] at hresult

theorem eq_of_error (h : Undisturbed t w now) {error : WriteError}
    (hstage : w.stage = .finished (.error error)) : now = t := by
  cases h with
  | untouched => rfl
  | staged hstaging => simp [hstage, Stage.staging?] at hstaging
  | saved hresult => simp [hstage] at hresult

theorem of_saved (h : Undisturbed t w now) (hstage : w.stage = .finished (.ok ())) :
    ∃ d name, t.namedEntry? w.path = some (d, name) ∧ t.renameTarget w.path = .ok (d, name) ∧
      now = t.place d name (.file ⟨w.contents, writtenMode, true⟩) := by
  cases h with
  | untouched _ hresult => exact absurd hstage hresult
  | staged hstaging => simp [hstage, Stage.staging?] at hstaging
  | saved _ hentry htarget => exact ⟨_, _, hentry, htarget, rfl⟩

theorem of_staging? (h : Undisturbed t w now) {staging : Staging}
    (hstaging : w.stage.staging? = some staging) :
    staging.file = t.fresh ∧
      t.resolveDirectory w.path.stagingDirectory = .ok staging.directory ∧
      t.entry? staging.directory staging.name = none ∧
      ∃ f, w.stage.Holds w.contents f ∧
        now = t.place staging.directory staging.name (.file f) := by
  cases h with
  | untouched hnone => simp [hstaging] at hnone
  | @staged other f hother hfile hdirectory hunused hholds =>
    obtain rfl : other = staging := Option.some.inj (hother.symm.trans hstaging)
    exact ⟨hfile, hdirectory, hunused, f, hholds, rfl⟩
  | saved hresult => simp [hresult, Stage.staging?] at hstaging

/-- Every call of a write that is alone keeps the tree as it should be. -/
theorem moves (h : Undisturbed t w now) {stage : Stage}
    (hmoves : w.Moves now stage after) : Undisturbed t { w with stage := stage } after := by
  cases hmoves with
  | stay => exact h
  | refuse hstage error =>
    rw [h.eq_of_creating hstage]
    exact .untouched rfl (by simp)
  | @create staging _ hstage hcreate =>
    rw [h.eq_of_creating hstage] at hcreate
    obtain ⟨hdirectory, hunused, hname, hfile, rfl⟩ := of_create_eq_ok hcreate
    rw [← hname] at hunused ⊢
    exact .staged (staging?_writingStage _ _) hfile hdirectory hunused
      (holds_writingStage _ (List.nil_append _))
  | modify hstaging hstage hchange =>
    obtain ⟨hfile, hdirectory, hunused, f, hholds, rfl⟩ := h.of_staging? hstaging
    rw [hfile, FileTree.modifyFile_place]
    exact .staged hstage hfile hdirectory hunused (hchange f hholds)
  | @save staging _ hstage hrename =>
    have hstaging : w.stage.staging? = some staging := by rw [hstage]; rfl
    obtain ⟨hfile, hdirectory, hunused, f, hholds, rfl⟩ := h.of_staging? hstaging
    rw [hstage] at hholds
    rw [hfile] at hrename
    -- the file might have been placed at the target at once, which is where its path led all along
    have hd := t.isDirectory_of_resolveDirectory hdirectory
    obtain ⟨d, name, htarget, rfl⟩ := FileTree.rename_place hd hunused hrename
    obtain ⟨rfl, hentry⟩ := t.namedEntry?_of_renameTarget hdirectory htarget
    obtain rfl := hholds
    exact .saved rfl hentry htarget
  | abandon hstaging error =>
    obtain ⟨hfile, hdirectory, hunused, f, hholds, rfl⟩ := h.of_staging? hstaging
    exact .staged rfl hfile hdirectory hunused (hholds.data_isPrefix hstaging)
  | @discard staging error hstage =>
    have hstaging : w.stage.staging? = some staging := by rw [hstage]; rfl
    obtain ⟨hfile, -, hunused, f, -, rfl⟩ := h.of_staging? hstaging
    rw [hfile, FileTree.discard_place hunused]
    exact .untouched rfl (by simp)

end Undisturbed

/-- A write is over when it has run, and the tree is as it should be then. -/
theorem undisturbed_run (hstage : w.stage = .creating) (script : List Answer) :
    ∃ last, last.path = w.path ∧ last.contents = w.contents ∧
      Undisturbed t last (w.run t script).2 ∧ last.stage = .finished (w.run t script).1 := by
  obtain ⟨last, ⟨hpath, hcontents, h⟩, hfinished⟩ := run_induction
    (P := fun v now => v.path = w.path ∧ v.contents = w.contents ∧ Undisturbed t v now)
    (fun _ _ _ _ ⟨hpath, hcontents, h⟩ hmoves => ⟨hpath, hcontents, h.moves hmoves⟩)
    ⟨rfl, rfl, .begun hstage⟩ script
  exact ⟨last, hpath, hcontents, h, hfinished⟩

theorem eq_of_run_error (hstage : w.stage = .creating) {script : List Answer}
    {error : WriteError} (herror : (w.run t script).1 = .error error) : (w.run t script).2 = t := by
  obtain ⟨last, -, -, h, hfinished⟩ := undisturbed_run hstage script
  rw [herror] at hfinished
  exact h.eq_of_error hfinished

theorem replaced_of_run_ok (hstage : w.stage = .creating)
    {script : List Answer} (hok : (w.run t script).1 = .ok ()) :
    ∃ d name, t.namedEntry? w.path = some (d, name) ∧
      (w.run t script).2 = t.place d name (.file ⟨w.contents, writtenMode, true⟩) ∧
      t.Replaced (w.run t script).2 d name ⟨w.contents, writtenMode, true⟩ := by
  obtain ⟨last, hpath, hcontents, h, hfinished⟩ := undisturbed_run hstage script
  rw [hok] at hfinished
  obtain ⟨d, name, hentry, htarget, heq⟩ := h.of_saved hfinished
  rw [hpath] at hentry
  rw [hcontents] at heq
  obtain ⟨-, -, hname⟩ := FileTree.renameTarget_eq_ok_iff.mp htarget
  refine ⟨d, name, hentry, heq, ?_⟩
  rw [heq]
  exact FileTree.replaced_place (t.isDirectory_of_namedEntry?_eq_some hentry) hname _

/-- A write that succeeds has put one new file, complete, synced and with its final permissions,
under the entry that its path named when it began, and left all else as it was. A write that fails,
at whichever call, leaves the very tree that it found, without the staging file. -/
theorem run_all_or_nothing (hstage : w.stage = .creating)
    (script : List Answer) :
    ((w.run t script).1 = .ok () → ∃ d name, t.namedEntry? w.path = some (d, name) ∧
      (w.run t script).2 = t.place d name (.file ⟨w.contents, writtenMode, true⟩) ∧
      t.Replaced (w.run t script).2 d name ⟨w.contents, writtenMode, true⟩) ∧
    ∀ error, (w.run t script).1 = .error error → (w.run t script).2 = t :=
  ⟨replaced_of_run_ok hstage, fun _ => eq_of_run_error hstage⟩

/-- A file takes the place of a dangling link. -/
theorem run_all_or_nothing_over_link :
    let t := FileTree.Sound.bare.after (.makeLink ⟨[0x78]⟩ ⟨[0x79]⟩)
    let w : AtomicWrite := { path := ⟨[0x78]⟩, contents := [0x61], stagingName := [0x74] }
    let script : List Answer := [.proceed, .accept 1]
    w.stage = .creating ∧ (w.run t script).1 = .ok () ∧
      ∃ d name, t.namedEntry? w.path = some (d, name) ∧
        (w.run t script).2 = t.place d name (.file ⟨w.contents, writtenMode, true⟩) ∧
        t.Replaced (w.run t script).2 d name ⟨w.contents, writtenMode, true⟩ := by
  intro t w script
  have hok : (w.run t script).1 = .ok () := by cbv
  exact ⟨rfl, hok, (run_all_or_nothing rfl script).1 hok⟩

end AtomicWrite

/-- The tree that a write leaves. -/
def FileTree.Sound.saved (t : FileTree.Sound) (p : Path) (contents : Bytes)
    (script : List Answer) : FileTree.Sound where
  toFileTree := (t.save p contents script).2
  wellFormed := by
    have hbegun : (AtomicWrite.begin t p contents).stage = .creating := rfl
    cases hresult : (t.save p contents script).1 with
    | ok _ =>
      obtain ⟨d, name, -, heq, -⟩ := AtomicWrite.replaced_of_run_ok hbegun hresult
      rw [FileTree.save, heq]
      exact (t.placed d name _ rfl).wellFormed
    | error e =>
      rw [FileTree.save, AtomicWrite.eq_of_run_error hbegun hresult]
      exact t.wellFormed

end LinearLight
