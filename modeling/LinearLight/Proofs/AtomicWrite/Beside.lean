import LinearLight.Proofs.AtomicWrite.Success
import LinearLight.Proofs.AtomicWrite.Trace
import LinearLight.Proofs.Path.Ending

/-!
# Staging files are made beside their targets

The directory of a staging file is cut from the text of the path, and the system finds the target of
the move by its own walk, at a later moment. A run that ends well has moved its staging file within
one directory all the same. A path for which that could not be true is refused.

## Main definitions

- `AtomicWrite.ComesToMove`: a run comes to the move, and ends with it
- `AtomicWrite.MovedWithin`: a run has moved its staging file to a name in the same directory

## Main statements

- `AtomicWrite.Moves.exists_saving`: only the move ends a write well
- `AtomicWrite.comesToMove_of_ok`: a run that ends well comes to the move
- `AtomicWrite.Reaches.exists_create`: the staging file that stands in the tree is the one made
  first
- `AtomicWrite.run_beside`: a write that succeeds has moved its file within a directory
-/

namespace LinearLight

namespace AtomicWrite

variable {t now after : FileTree} {w v : AtomicWrite} {staging : Staging} {script : List Answer}

/-- Only the move makes a write succeed. -/
theorem Moves.exists_saving {stage : Stage} (h : w.Moves t stage after)
    (hstage : stage = .finished (.ok ())) (hbefore : w.stage ≠ .finished (.ok ())) :
    ∃ staging, w.stage = .saving staging ∧
      t.rename staging.directory staging.name staging.file w.path = .ok after := by
  cases h with
  | stay => exact absurd hstage hbefore
  | @create staging =>
    have hstaging := staging?_writingStage staging w.contents
    simp [hstage, Stage.staging?] at hstaging
  | modify _ hstaging => simp [hstage, Stage.staging?] at hstaging
  | save hsaving hrename => exact ⟨_, hsaving, hrename⟩
  | _ => cases hstage

/-- A run comes to the stage in which the staging file is moved, and the move makes the tree that
the run leaves. -/
def ComesToMove (w : AtomicWrite) (t : FileTree) (script : List Answer) : Prop :=
  ∃ v now staging, w.Reaches t script v now ∧ v.stage = .saving staging ∧
    now.rename staging.directory staging.name staging.file v.path = .ok (w.run t script).2

/-- The first step of a run is the move, after which nothing happens, or the run comes to the move
after it. -/
theorem comesToMove_of_step {answer : Answer} {rest : List Answer}
    (hrun : w.run t script = (w.step t answer).1.run (w.step t answer).2 rest)
    (hreaches : ∀ {v now}, (w.step t answer).1.Reaches (w.step t answer).2 rest v now →
      w.Reaches t script v now)
    (hbegun : w.stage ≠ .finished (.ok ()))
    (hrest : (w.step t answer).1.stage ≠ .finished (.ok ()) →
      (w.step t answer).1.ComesToMove (w.step t answer).2 rest) : w.ComesToMove t script := by
  by_cases hlast : (w.step t answer).1.stage = .finished (.ok ())
  · obtain ⟨staging, hsaving, hrename⟩ := (w.step_moves t answer).1.exists_saving hlast hbegun
    refine ⟨w, t, staging, .start, hsaving, ?_⟩
    rw [hrun, run_of_finished hlast]
    exact hrename
  · obtain ⟨v, now, staging, hv, hsaving, hrename⟩ := hrest hlast
    exact ⟨v, now, staging, hreaches hv, hsaving, hrun ▸ hrename⟩

/-- A run that ends well comes to the move. -/
theorem comesToMove_of_ok (hbegun : w.stage ≠ .finished (.ok ()))
    (hok : (w.run t script).1 = .ok ()) : w.ComesToMove t script := by
  induction script generalizing w t with
  | nil =>
    induction w, t using finish.induct with
    | case1 w t result hresult =>
      have hfinished := stage_of_result? hresult
      rw [run_of_finished hfinished] at hok
      exact absurd (hok ▸ hfinished) hbegun
    | case2 w t hresult ih =>
      have hrun : w.run t [] = (w.step t .proceed).1.run (w.step t .proceed).2 [] := by
        rw [run, run, finish_of_not_over hresult]
      exact comesToMove_of_step hrun (.proceeded hresult) hbegun fun hnext => ih hnext (hrun ▸ hok)
  | cons answer rest ih =>
    exact comesToMove_of_step rfl .answered hbegun fun hnext => ih hnext hok

/-- Wherever a run comes to, the write is the one that was begun, the tree is as it should be, and
the staging file is the one that was made first. -/
theorem Reaches.exists_create {t : FileTree.Sound} (hstage : w.stage = .creating)
    (h : w.Reaches t script v now) :
    v = { w with stage := v.stage } ∧ Undisturbed t v now ∧
      ∀ staging, v.stage.staging? = some staging →
        ∃ created, w.create t = .ok (staging, created) := by
  refine h.induction
    (P := fun v now => v = { w with stage := v.stage } ∧ Undisturbed t v now ∧
      ∀ staging, v.stage.staging? = some staging → ∃ created, w.create t = .ok (staging, created))
    ?_ ⟨rfl, .begun hstage, by simp [hstage, Stage.staging?]⟩
  rintro v now stage after ⟨hsame, hundisturbed, hmade⟩ hmoves
  refine ⟨by rw [hsame], hundisturbed.moves hmoves, ?_⟩
  cases hmoves with
  | stay => exact hmade
  | create hcreating hcreate =>
    rw [hundisturbed.eq_of_creating hcreating, hsame] at hcreate
    intro staging hstaging
    simp only [staging?_writingStage, Option.some.injEq] at hstaging
    subst hstaging
    exact ⟨_, hcreate⟩
  -- a staging file that stands in the tree after the call stood there before
  | modify hbefore hafter =>
    exact fun staging hstaging => hmade staging (hbefore.trans (hafter.symm.trans hstaging))
  | abandon hbefore => exact fun staging hstaging => hmade staging (hbefore.trans hstaging)
  | _ => exact fun staging hstaging => by cases hstaging

/-- A run has made its staging file in a directory and moved it from there over what a name in the
same directory stood for. -/
structure MovedWithin (w : AtomicWrite) (t : FileTree) (script : List Answer) (staging : Staging)
    (name : Name) : Prop where
  created : ∃ after, w.create t = .ok (staging, after)
  moved : ∃ now, w.Reaches t script { w with stage := .saving staging } now ∧
    now.entry? staging.directory staging.name = some staging.file ∧
    now.renameTarget w.path = .ok (staging.directory, name) ∧
    now.rename staging.directory staging.name staging.file w.path = .ok (w.run t script).2
  replaced : FileTree.entry? (w.run t script).2 staging.directory name = some staging.file

/-- A write that succeeds has moved its staging file within the directory in which it was made, to
the name behind the last slash of its path. A path that ends in anything else than a name is not
written to. -/
theorem run_beside {t : FileTree.Sound} (hstage : w.stage = .creating)
    (hok : (w.run t script).1 = .ok ()) :
    w.path.EndsInName ∧ ∃ staging, w.MovedWithin t script staging w.path.ending := by
  obtain ⟨v, now, staging, hreaches, hsaving, hrename⟩ := comesToMove_of_ok (by simp [hstage]) hok
  obtain ⟨hsame, hundisturbed, hmade⟩ := hreaches.exists_create hstage
  have hstaging : v.stage.staging? = some staging := by rw [hsaving]; rfl
  rw [hsaving] at hsame
  obtain ⟨hfile, hdirectory, hunused, f, -, rfl⟩ := hundisturbed.of_staging? hstaging
  rw [hsame] at hreaches hdirectory hrename
  have hd := t.isDirectory_of_resolveDirectory hdirectory
  have hplaced := FileTree.replaced_place_of_unused hd hunused f
  -- the staging file hides nothing, so the target is the one that the path had at the start
  obtain ⟨d, name, htarget, -⟩ := FileTree.of_rename_eq_ok hrename
  have hbefore := hplaced.others.renameTarget htarget
  obtain ⟨rfl, -⟩ := t.namedEntry?_of_renameTarget hdirectory hbefore
  obtain ⟨hends, rfl⟩ := FileTree.endsInName_of_renameTarget htarget
  have hentry : FileTree.entry? (t.place staging.directory staging.name (.file f))
      staging.directory staging.name = some staging.file := by
    rw [FileTree.entry?_place staging.name hd rfl, if_pos ⟨rfl, rfl⟩, hfile]
  refine ⟨hends, staging, hmade staging hstaging, ⟨_, hreaches, hentry, htarget, hrename⟩, ?_⟩
  rw [hfile] at hrename ⊢
  obtain ⟨d', name', htarget', htree⟩ := FileTree.rename_place hd hunused hrename
  rw [hbefore] at htarget'
  cases htarget'
  rw [htree, FileTree.entry?_place _ hd rfl, if_pos ⟨rfl, rfl⟩]

/-- By way of a link, slashes and a dot to a new file in the current directory. -/
theorem run_beside_through_link :
    let t := FileTree.Sound.bare.after (.makeLink ⟨[0x6C]⟩ ⟨[0x2F]⟩)
    let w : AtomicWrite :=
      { path := ⟨[0x6C, 0x2F, 0x2F, 0x2E, 0x2F, 0x78]⟩, contents := [0x61, 0x62],
        stagingName := [0x74] }
    let script : List Answer := [.proceed, .accept 1]
    w.stage = .creating ∧ (w.run t script).1 = .ok () ∧ w.path.EndsInName ∧
      ∃ staging, w.MovedWithin t script staging w.path.ending := by
  intro t w script
  obtain ⟨staging, after, hcreate⟩ : ∃ staging after, w.create t = .ok (staging, after) :=
    exists_create (by cbv) (show t.resolveDirectory w.path.stagingDirectory = .ok 0 by cbv) (by cbv)
  have htarget : t.renameTarget w.path = .ok (0, [0x78]) := by cbv
  have hgranted : ∀ answer ∈ script, answer.Granted := by simp [script, Answer.Granted]
  have hok : (w.run t script).1 = .ok () := (run_of_create rfl hcreate hgranted).eq_ok htarget
  exact ⟨rfl, hok, run_beside rfl hok⟩

end AtomicWrite

end LinearLight
