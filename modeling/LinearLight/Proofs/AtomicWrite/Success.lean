import LinearLight.Proofs.AtomicWrite.AllOrNothing
import LinearLight.Proofs.AtomicWrite.StagingName
import LinearLight.Proofs.FileTree.Persistence

/-!
# When a write succeeds

A write whose calls are all granted fails only where the tree makes it fail: the path of the staging
file is not taken by the system, its directory is not found, or the path is none that a file can be
moved to. So once the staging file is made, the move decides. What a successful write says about its
path is enough for the next one to succeed, also on a tree in which files have replaced some
entries, if the path passes no link.

## Main definitions

- `Answer.Granted`: the system does not make a call fail
- `FileTree.MoveDecides`: the result of a write in which nothing but the move can fail
- `Stage.OnCourse`: the stages that such a write goes through
- `FileTree.Saveable`: what the tree has to say of a path for a write to succeed

## Main statements

- `AtomicWrite.run_of_create`, `AtomicWrite.run_of_create_error`: the result of a write whose calls
  are granted
- `FileTree.saveable_of_save`: a write that succeeds has been to such a path
- `FileTree.Saveable.save`: a write to such a path succeeds
- `FileTree.Saveable.sameExcept`, `FileTree.Saveable.of_sameExcept`: such a path on a changed tree
-/

namespace LinearLight

/-! ### All calls are granted -/

/-- The system does not make a call fail: of what is written, it takes a byte at least. -/
def Answer.Granted : Answer → Prop
  | proceed => True
  | accept count => count ≠ 0
  | fail _ => False

/-- What comes of a write in which nothing but the move can fail. -/
inductive FileTree.MoveDecides (t : FileTree) (p : Path) : Except WriteError Unit → Prop where
  | moved {target} (h : t.renameTarget p = .ok target) : MoveDecides t p (.ok ())
  | refused (h : ∀ target, t.renameTarget p ≠ .ok target) (cause : IoError) :
      MoveDecides t p (.error (.save p cause))

/-- The stages of a write in which no call has failed since the staging file was made, unless it was
the move. -/
def Stage.OnCourse (t : FileTree) (p : Path) : Stage → Prop
  | creating => False
  | writing .. => True
  | syncing _ => True
  | settingMode _ => True
  | saving _ => True
  | abandoning _ error => t.MoveDecides p (.error error)
  | finished result => t.MoveDecides p result

theorem FileTree.MoveDecides.eq_ok {t : FileTree} {p : Path} {result : Except WriteError Unit}
    (h : t.MoveDecides p result) {target : NodeId × Name}
    (htarget : t.renameTarget p = .ok target) : result = .ok () := by
  cases h with
  | moved => rfl
  | refused hnone => exact absurd htarget (hnone target)

namespace AtomicWrite

variable {t now after : FileTree} {w : AtomicWrite}

theorem exists_create {d : NodeId} (hcheck : FileTree.checkPath (w.stagingPath t) = .ok ())
    (hd : t.resolveDirectory w.path.stagingDirectory = .ok d)
    (hunused : t.entry? d w.stagingName = none) :
    ∃ staging after, w.create t = .ok (staging, after) := by
  obtain ⟨-, hzero, -⟩ := FileTree.checkPath_eq_ok_iff.mp hcheck
  refine ⟨⟨d, w.stagingName, t.fresh⟩,
    t.place d w.stagingName (.file ⟨[], stagingMode, false⟩), ?_⟩
  have hexclusive : t.createExclusive d w.stagingName stagingMode =
      .ok (t.place d w.stagingName (.file ⟨[], stagingMode, false⟩)) := by
    unfold FileTree.createExclusive
    rw [hunused]
  rw [create, if_neg (by simp [hzero]), mapError_eq_ok, createStaging, hcheck, hd]
  simp only [bind, Except.bind, hexclusive]
  rfl

theorem checkPath_of_create_eq_ok {staging : Staging} (h : w.create t = .ok (staging, after)) :
    FileTree.checkPath (w.stagingPath t) = .ok () := by
  unfold create at h
  split at h
  · cases h
  · rw [mapError_eq_ok, createStaging] at h
    obtain ⟨_, hcheck, -⟩ := bind_eq_ok.mp h
    exact hcheck

/-- A write that is over does nothing more. -/
theorem run_of_finished {result : Except WriteError Unit} (h : w.stage = .finished result)
    (t : FileTree) (script : List Answer) : w.run t script = (result, t) := by
  obtain ⟨last, ⟨hlast, htree⟩, hfinished⟩ := run_induction
    (P := fun v now => v.stage = .finished result ∧ now = t)
    (fun v now stage after hv hmoves => by
      cases hmoves with
      | stay => exact hv
      | _ hstage => simp [hv, Stage.staging?] at hstage) ⟨h, rfl⟩ script
  rw [hlast] at hfinished
  exact Prod.ext (Stage.finished.inj hfinished).symm htree

/-- A write that is not over takes a first step, with or without a script. -/
theorem exists_run_eq_run_step (h : w.result? = none) (t : FileTree) (script : List Answer) :
    ∃ answer rest, w.run t script = (w.step t answer).1.run (w.step t answer).2 rest ∧
      ∀ given ∈ answer :: rest, given = .proceed ∨ given ∈ script := by
  cases script with
  | nil =>
    refine ⟨.proceed, [], by rw [run, run, finish_of_not_over h], fun given hgiven => .inl ?_⟩
    exact List.mem_singleton.mp hgiven
  | cons answer rest => exact ⟨answer, rest, rfl, fun given hgiven => .inr hgiven⟩

/-- A write that succeeds has made its staging file: if that had failed, it would have been over. -/
theorem exists_create_of_run_ok (hstage : w.stage = .creating) {script : List Answer}
    (hok : (w.run t script).1 = .ok ()) : ∃ staging after, w.create t = .ok (staging, after) := by
  cases hcreate : w.create t with
  | ok made => exact ⟨made.1, made.2, rfl⟩
  | error e =>
    have hbegun : w.result? = none := by simp [result?, hstage]
    obtain ⟨answer, rest, hrun, -⟩ := exists_run_eq_run_step hbegun t script
    have hfailed : ∃ error, (w.step t answer).1.stage = .finished (.error error) := by
      cases answer <;> simp [step, hstage, hcreate]
    obtain ⟨error, hfailed⟩ := hfailed
    rw [hrun, run_of_finished hfailed] at hok
    cases hok

/-- The staging file can be moved whenever its target can be moved to. -/
theorem exists_rename {p : Path} {target : NodeId × Name} (h : t.renameTarget p = .ok target)
    (d : NodeId) (name : Name) (id : NodeId) : ∃ after, t.rename d name id p = .ok after := by
  rw [FileTree.rename, h]
  by_cases hsame : t.entry? target.1 target.2 = some id
  · exact ⟨t, if_pos hsame⟩
  · exact ⟨_, if_neg hsame⟩

/-- The staging file does not matter to the move: it hides no directory and no link, and no path
leads through it. -/
theorem moveDecides_of_rename {t : FileTree.Sound} (h : Undisturbed t w now) {staging : Staging}
    (hstage : w.stage = .saving staging) :
    let moved := now.rename staging.directory staging.name staging.file w.path
    (∀ after, moved = .ok after → t.MoveDecides w.path (.ok ())) ∧
      ∀ e, moved = .error e → t.MoveDecides w.path (.error (.save w.path (.system e))) := by
  have hstaging : w.stage.staging? = some staging := by rw [hstage]; rfl
  obtain ⟨-, hdirectory, hunused, f, -, rfl⟩ := h.of_staging? hstaging
  have hd := t.isDirectory_of_resolveDirectory hdirectory
  have hsame := (FileTree.replaced_place_of_unused hd hunused f).others
  have hlinks := hsame.keepsLinks fun d name id target hchanged hid => by
    obtain ⟨rfl, rfl⟩ := hchanged
    simp [hunused] at hid
  constructor
  · intro after hrename
    obtain ⟨d, name, htarget, -⟩ := FileTree.of_rename_eq_ok hrename
    exact .moved (hsame.renameTarget htarget)
  · intro e hrename
    refine .refused (fun target htarget => ?_) _
    have htarget' := (hsame.keepsWay hlinks w.path).renameTarget hsame htarget
    obtain ⟨after, hrename'⟩ := exists_rename htarget' staging.directory staging.name staging.file
    rw [hrename] at hrename'
    cases hrename'

theorem onCourse_writingStage (t : FileTree) (p : Path) (staging : Staging) (left : Bytes) :
    (writingStage staging left).OnCourse t p := by
  unfold writingStage
  split <;> trivial

/-- A call that is granted keeps a write on course. -/
theorem onCourse_step {t : FileTree.Sound} {answer : Answer} (hgranted : answer.Granted)
    (h : Undisturbed t w now) (hcourse : w.stage.OnCourse t w.path) :
    (w.step now answer).1.stage.OnCourse t w.path := by
  cases hstage : w.stage with
  | creating => simp [hstage, Stage.OnCourse] at hcourse
  | writing staging left =>
    cases answer with
    | proceed => simp [step, hstage, Stage.OnCourse]
    | accept count =>
      cases count with
      | zero => exact absurd rfl hgranted
      | succ count =>
        simp only [step, hstage]
        exact onCourse_writingStage _ _ _ _
    | fail cause => exact hgranted.elim
  | syncing staging => cases answer <;> simp_all [step, Stage.OnCourse, Answer.Granted]
  | settingMode staging => cases answer <;> simp_all [step, Stage.OnCourse, Answer.Granted]
  | saving staging =>
    obtain ⟨hmoved, hrefused⟩ := moveDecides_of_rename h hstage
    cases answer with
    | fail cause => exact hgranted.elim
    | _ =>
      simp only [step, hstage]
      split
      · next hrename => exact hmoved _ hrename
      · next hrename => exact hrefused _ hrename
  | abandoning staging error => simpa [step, hstage, Stage.OnCourse] using hcourse
  | finished result => simpa [step, hstage, Stage.OnCourse] using hcourse

/-- A write that is on course ends as the move decides. -/
theorem run_of_onCourse {t : FileTree.Sound} {script : List Answer}
    (hgranted : ∀ answer ∈ script, answer.Granted) (h : Undisturbed t w now)
    (hcourse : w.stage.OnCourse t w.path) : t.MoveDecides w.path (w.run now script).1 := by
  -- the path is the same all along, and each call keeps the tree as it should be
  have hstep {w now} (answer : Answer) (hanswer : answer.Granted) (h : Undisturbed t w now)
      (hcourse : w.stage.OnCourse t w.path) :
      (w.step now answer).1.path = w.path ∧
        Undisturbed t (w.step now answer).1 (w.step now answer).2 ∧
        (w.step now answer).1.stage.OnCourse t (w.step now answer).1.path := by
    obtain ⟨hmoves, heq⟩ := w.step_moves now answer
    have hpath : (w.step now answer).1.path = w.path := by rw [heq]
    refine ⟨hpath, ?_, hpath ▸ onCourse_step hanswer h hcourse⟩
    rw [heq]
    exact h.moves hmoves
  induction script generalizing w now with
  | nil =>
    rw [run]
    induction w, now using finish.induct with
    | case1 w now result hresult =>
      rw [finish_of_result? hresult]
      rwa [stage_of_result? hresult] at hcourse
    | case2 w now hresult ih =>
      rw [finish_of_not_over hresult]
      obtain ⟨hpath, h', hcourse'⟩ := hstep .proceed trivial h hcourse
      exact hpath ▸ ih h' hcourse'
  | cons answer script ih =>
    obtain ⟨hanswer, hscript⟩ := List.forall_mem_cons.mp hgranted
    obtain ⟨hpath, h', hcourse'⟩ := hstep answer hanswer h hcourse
    rw [run]
    exact hpath ▸ ih hscript h' hcourse'

/-- A write whose calls are granted and whose staging file is made ends as the move decides. -/
theorem run_of_create {t : FileTree.Sound} (hstage : w.stage = .creating) {staging : Staging}
    (hcreate : w.create t = .ok (staging, after)) {script : List Answer}
    (hgranted : ∀ answer ∈ script, answer.Granted) : t.MoveDecides w.path (w.run t script).1 := by
  have hbegun : w.result? = none := by simp [result?, hstage]
  obtain ⟨answer, rest, hrun, hscript⟩ := exists_run_eq_run_step hbegun t script
  have hall : ∀ given ∈ answer :: rest, given.Granted := by
    intro given hgiven
    obtain rfl | hmem := hscript given hgiven
    · trivial
    · exact hgranted given hmem
  obtain ⟨hanswer, hrest⟩ := List.forall_mem_cons.mp hall
  -- the first step makes the staging file, and the others stay on course
  have hstep : w.step t answer =
      ({ w with stage := writingStage staging w.contents }, after) := by
    cases answer with
    | fail cause => exact hanswer.elim
    | _ => simp [step, hstage, hcreate]
  have hundisturbed := (Undisturbed.begun hstage).moves (.create hstage hcreate)
  rw [hrun, hstep]
  exact run_of_onCourse hrest hundisturbed (onCourse_writingStage _ _ _ _)

/-- A write whose staging file cannot be made fails with that. -/
theorem run_of_create_error (hstage : w.stage = .creating) {e : IoError}
    (hcreate : w.create t = .error e) {script : List Answer}
    (hgranted : ∀ answer ∈ script, answer.Granted) :
    (w.run t script).1 = .error (.create w.path.stagingDirectory (w.stagingPath t) e) := by
  have hbegun : w.result? = none := by simp [result?, hstage]
  obtain ⟨answer, rest, hrun, hscript⟩ := exists_run_eq_run_step hbegun t script
  have hanswer : answer.Granted := by
    obtain rfl | hmem := hscript answer List.mem_cons_self
    · trivial
    · exact hgranted answer hmem
  have hfailed : (w.step t answer).1.stage =
      .finished (.error (.create w.path.stagingDirectory (w.stagingPath t) e)) := by
    cases answer with
    | fail cause => exact hanswer.elim
    | _ => simp [step, hstage, hcreate]
  rw [hrun, run_of_finished hfailed]

end AtomicWrite

/-! ### Paths that can be written to -/

namespace FileTree

variable {t after : FileTree} {p : Path} {d : NodeId} {name : Name}
  {changed : NodeId → Name → Prop}

/-- What a tree has to say of a path for a write to succeed. The name of the staging file does not
matter, as long as it is short. -/
structure Saveable (t : FileTree) (p : Path) (d : NodeId) (name : Name) : Prop where
  directory : t.resolveDirectory p.stagingDirectory = .ok d
  target : t.renameTarget p = .ok (d, name)
  staging : ∃ n, checkPath (p.stagingPath t.currentPath (stagingName n)) = .ok ()

/-- A write that succeeds has placed its file where a file could be moved to. -/
theorem saveable_of_save {t : Sound} {contents : Bytes} {script : List Answer}
    (hok : (t.save p contents script).1 = .ok ()) : ∃ d name, t.Saveable p d name ∧
      (t.save p contents script).2 = t.place d name (.file ⟨contents, writtenMode, true⟩) := by
  have hbegun : (AtomicWrite.begin t p contents).stage = .creating := rfl
  obtain ⟨staging, after, hcreate⟩ := AtomicWrite.exists_create_of_run_ok hbegun hok
  obtain ⟨last, hpath, hcontents, h, hfinished⟩ := AtomicWrite.undisturbed_run hbegun script
  obtain ⟨hdirectory, -, -, -, -⟩ := AtomicWrite.of_create_eq_ok hcreate
  obtain ⟨d, name, -, htarget, htree⟩ := h.of_saved (hfinished.trans (congrArg _ hok))
  rw [hpath] at htarget
  rw [hcontents] at htree
  obtain ⟨rfl, -⟩ := t.namedEntry?_of_renameTarget hdirectory htarget
  obtain ⟨n, hname, -, -⟩ := t.exists_freeStagingName_eq p
  have hcheck := AtomicWrite.checkPath_of_create_eq_ok hcreate
  exact ⟨_, name, ⟨hdirectory, htarget, n, hname ▸ hcheck⟩, htree⟩

namespace Saveable

theorem isDirectory {t : Sound} (h : t.Saveable p d name) : t.isDirectory d :=
  t.isDirectory_of_resolveDirectory h.directory

theorem not_isDirectory (h : t.Saveable p d name) {id : NodeId} (hid : t.entry? d name = some id) :
    t.isDirectory id = false :=
  (renameTarget_eq_ok_iff.mp h.target).2.2 id hid

/-- A path that can be written to after entries have changed could be written to before. -/
theorem of_sameExcept {t : Sound} (h : after.Saveable p d name)
    (hsame : t.SameExcept after changed) : t.Saveable p d name where
  directory := hsame.resolveDirectory h.directory
  target := hsame.renameTarget h.target
  staging := hsame.currentPath ▸ h.staging

/-- A path that passes no link can be written to after entries have changed. -/
theorem sameExcept {t after : Sound} (h : t.Saveable p d name) (hpath : t.FollowsNoLink p)
    (hsame : t.SameExcept after changed) : after.Saveable p d name where
  directory := (hpath.keepsWay hsame).resolveDirectory hsame h.target h.directory
  target := (hpath.keepsWay hsame).renameTarget hsame h.target
  staging := hsame.currentPath ▸ h.staging

/-- A write succeeds if all calls proceed, its path can be written to, and there is a name for the
staging file. -/
theorem save {t : Sound} (h : t.Saveable p d name) {others : List Name}
    (hroom : t.HasStagingRoom p others) (contents : Bytes) :
    (t.save p contents).1 = .ok () := by
  obtain ⟨n, hname, hshort⟩ := hroom.exists_freeStagingName_eq
  obtain ⟨m, hcheck⟩ := h.staging
  have hcheck' : checkPath ((AtomicWrite.begin t p contents).stagingPath t) = .ok () := by
    rw [AtomicWrite.stagingPath, AtomicWrite.begin, hname]
    exact checkPath_stagingPath (hshort m) hcheck
  obtain ⟨staging, after, hcreate⟩ := AtomicWrite.exists_create hcheck' h.directory
    (entry?_freeStagingName h.directory)
  exact (AtomicWrite.run_of_create rfl hcreate (by simp)).eq_ok h.target

end Saveable

end FileTree

end LinearLight
