import LinearLight.Proofs.FileTree.Resolution
import LinearLight.AtomicWrite

/-!
# What one call of a write can do

The steps of a write are sorted by what they do to the tree: nothing, make the staging file, change
it, move it over the target, or take it away. Invariants are proved for each sort, and carried
through a run by one induction.

## Main definitions

- `Stage.staging?`: the staging file that stands in the tree
- `Stage.Holds`: what the staging file holds in each stage
- `AtomicWrite.Moves`: the stages and trees that one call can lead to

## Main statements

- `AtomicWrite.step_moves`: every call is one of these moves
- `AtomicWrite.run_induction`: what every move keeps, a run keeps
-/

namespace LinearLight

namespace Stage

/-- The staging file, from its creation until it is moved or taken away. -/
def staging? : Stage → Option Staging
  | creating => none
  | writing staging _ => some staging
  | syncing staging => some staging
  | settingMode staging => some staging
  | saving staging => some staging
  | abandoning staging _ => some staging
  | finished _ => none

/-- What the staging file holds: what has been written and what is left make up the contents; what
is left before the call to sync is nothing; and before the move the file is synced and has its
final permissions. -/
def Holds (contents : Bytes) (f : File) : Stage → Prop
  | creating => True
  | writing _ left => f.data ++ left = contents
  | syncing _ => f.data = contents
  | settingMode _ => f.data = contents ∧ f.synced = true
  | saving _ => f = ⟨contents, writtenMode, true⟩
  | abandoning .. => f.data <+: contents
  | finished _ => True

variable {contents : Bytes} {f : File} {stage : Stage} {staging : Staging}

/-- A staging file never holds anything but a beginning of the contents. -/
theorem Holds.data_isPrefix (h : stage.Holds contents f)
    (hstaging : stage.staging? = some staging) :
    f.data <+: contents := by
  cases stage with
  | creating => cases hstaging
  | writing _ left => exact ⟨left, h⟩
  | syncing _ => exact h ▸ List.prefix_rfl
  | settingMode _ => exact h.1 ▸ List.prefix_rfl
  | saving _ =>
    obtain rfl := h
    exact List.prefix_rfl
  | abandoning _ _ => exact h
  | finished _ => cases hstaging

end Stage

namespace AtomicWrite

@[simp] theorem staging?_writingStage (staging : Staging) (left : Bytes) :
    (writingStage staging left).staging? = some staging := by
  unfold writingStage
  split <;> rfl

theorem holds_writingStage {contents left : Bytes} {f : File} (staging : Staging)
    (h : f.data ++ left = contents) : (writingStage staging left).Holds contents f := by
  unfold writingStage
  split
  · next hempty =>
    rw [List.isEmpty_iff.mp hempty, List.append_nil] at h
    exact h
  · exact h

/-- A staging file is made empty, under its name if that is not in use, in the directory that the
parent of the path leads to. -/
theorem of_create_eq_ok {w : AtomicWrite} {t after : FileTree} {staging : Staging}
    (h : w.create t = .ok (staging, after)) :
    t.resolveDirectory w.path.stagingDirectory = .ok staging.directory ∧
      t.entry? staging.directory w.stagingName = none ∧
      staging.name = w.stagingName ∧ staging.file = t.fresh ∧
      after = t.place staging.directory w.stagingName (.file ⟨[], stagingMode, false⟩) := by
  unfold create at h
  split at h
  · cases h
  · rw [mapError_eq_ok, createStaging] at h
    obtain ⟨_, _, h⟩ := bind_eq_ok.mp h
    obtain ⟨d, hd, h⟩ := bind_eq_ok.mp h
    obtain ⟨made, hmade, h⟩ := bind_eq_ok.mp h
    cases h
    unfold FileTree.createExclusive at hmade
    split at hmade
    · cases hmade
    · next hunused =>
      cases hmade
      exact ⟨hd, hunused, rfl, rfl, rfl⟩

/-- What one call can lead to: the stage after it, and the tree. -/
inductive Moves (w : AtomicWrite) (t : FileTree) : Stage → FileTree → Prop where
  /-- The write is over, or the call was only interrupted. -/
  | stay : Moves w t w.stage t
  | refuse (h : w.stage = .creating) (error : WriteError) : Moves w t (.finished (.error error)) t
  | create {staging after} (h : w.stage = .creating) (hcreate : w.create t = .ok (staging, after)) :
      Moves w t (writingStage staging w.contents) after
  /-- The staging file is changed, and holds then what it should hold in the next stage. -/
  | modify {staging stage} {change : File → File} (h : w.stage.staging? = some staging)
      (hstage : stage.staging? = some staging)
      (hchange : ∀ f, w.stage.Holds w.contents f → stage.Holds w.contents (change f)) :
      Moves w t stage (t.modifyFile staging.file change)
  | save {staging after} (h : w.stage = .saving staging)
      (hrename : t.rename staging.directory staging.name staging.file w.path = .ok after) :
      Moves w t (.finished (.ok ())) after
  | abandon {staging} (h : w.stage.staging? = some staging) (error : WriteError) :
      Moves w t (.abandoning staging error) t
  | discard {staging error} (h : w.stage = .abandoning staging error) :
      Moves w t (.finished (.error error))
        ((t.removeEntry staging.directory staging.name).remove staging.file)

/-- Some of the bytes that are left are written. -/
theorem moves_write {w : AtomicWrite} {t : FileTree} {staging : Staging} {left : Bytes}
    (h : w.stage = .writing staging left) (count : Nat) :
    w.Moves t (writingStage staging (left.drop count)) (append staging (left.take count) t) := by
  refine .modify (by rw [h]; rfl) (staging?_writingStage _ _) fun f hholds => ?_
  rw [h] at hholds
  refine holds_writingStage _ ?_
  rw [List.append_assoc, List.take_append_drop]
  exact hholds

theorem moves_sync {w : AtomicWrite} {t : FileTree} {staging : Staging}
    (h : w.stage = .syncing staging) :
    w.Moves t (.settingMode staging)
      (t.modifyFile staging.file fun f => { f with synced := true }) := by
  refine .modify (by rw [h]; rfl) rfl fun f hholds => ?_
  rw [h] at hholds
  exact ⟨hholds, rfl⟩

theorem moves_setMode {w : AtomicWrite} {t : FileTree} {staging : Staging}
    (h : w.stage = .settingMode staging) :
    w.Moves t (.saving staging)
      (t.modifyFile staging.file fun f => { f with mode := writtenMode }) := by
  refine .modify (by rw [h]; rfl) rfl fun f hholds => ?_
  rw [h] at hholds
  obtain ⟨hdata, hsynced⟩ := hholds
  simp [Stage.Holds, hdata, hsynced]

/-- Every call is one of the moves, and nothing but the stage of the write changes. -/
theorem step_moves (w : AtomicWrite) (t : FileTree) (answer : Answer) :
    w.Moves t (w.step t answer).1.stage (w.step t answer).2 ∧
      (w.step t answer).1 = { w with stage := (w.step t answer).1.stage } := by
  refine ⟨?_, ?_⟩
  · obtain ⟨path, contents, name, stage⟩ := w
    cases stage with
    | creating =>
      cases answer with
      | fail cause => exact .refuse rfl _
      | _ =>
        simp only [step]
        split
        · next hcreate => exact .create rfl hcreate
        · exact .refuse rfl _
    | writing staging left =>
      cases answer with
      | proceed =>
        -- all that is left is written, which empties it
        have hall := moves_write (w := ⟨path, contents, name, .writing staging left⟩) (t := t) rfl
          left.length
        simpa [step, writingStage] using hall
      | accept count =>
        cases count with
        | zero => exact .abandon rfl _
        | succ count => exact moves_write rfl (count + 1)
      | fail cause =>
        simp only [step]
        split
        · exact .stay
        · exact .abandon rfl _
    | syncing staging =>
      cases answer with
      | fail cause => exact .abandon rfl _
      | _ => exact moves_sync rfl
    | settingMode staging =>
      cases answer with
      | fail cause => exact .abandon rfl _
      | _ => exact moves_setMode rfl
    | saving staging =>
      cases answer with
      | fail cause => exact .abandon rfl _
      | _ =>
        simp only [step]
        split
        · next hrename => exact .save rfl hrename
        · exact .abandon rfl _
    | abandoning staging error => exact .discard rfl
    | finished result => exact .stay
  · unfold step
    split <;> first | rfl | (split <;> rfl)

/-- What moves keep holds after a call. -/
theorem step_induction {P : AtomicWrite → FileTree → Prop}
    (hstep : ∀ w t stage after, P w t → w.Moves t stage after → P { w with stage := stage } after)
    {w : AtomicWrite} {t : FileTree} (h : P w t) (answer : Answer) :
    P (w.step t answer).1 (w.step t answer).2 := by
  obtain ⟨hmoves, heq⟩ := w.step_moves t answer
  rw [heq]
  exact hstep w t _ _ h hmoves

theorem stage_of_result? {w : AtomicWrite} {result : Except WriteError Unit}
    (h : w.result? = some result) : w.stage = .finished result := by
  unfold result? at h
  split at h
  · next hstage =>
    rw [hstage, Option.some.inj h]
  · cases h

theorem finish_of_result? {w : AtomicWrite} {result : Except WriteError Unit}
    (h : w.result? = some result) (t : FileTree) : w.finish t = (result, t) := by
  rw [finish]
  split
  · next result' h' =>
    rw [h] at h'
    cases h'
    rfl
  · next h' => simp [h] at h'

theorem finish_of_not_over {w : AtomicWrite} (h : w.result? = none) (t : FileTree) :
    w.finish t = (w.step t .proceed).1.finish (w.step t .proceed).2 := by
  rw [finish]
  split
  · next result' h' => simp [h] at h'
  · rfl

/-- What moves keep holds at the end of a run, where the write has the result of the run. -/
theorem run_induction {P : AtomicWrite → FileTree → Prop}
    (hstep : ∀ w t stage after, P w t → w.Moves t stage after → P { w with stage := stage } after)
    {w : AtomicWrite} {t : FileTree} (h : P w t) (script : List Answer) :
    ∃ last, P last (w.run t script).2 ∧ last.stage = .finished (w.run t script).1 := by
  induction script generalizing w t with
  | nil =>
    rw [run]
    -- the script is over, and the rest is by recursion on the steps that are left
    induction w, t using finish.induct with
    | case1 w t result hresult =>
      rw [finish_of_result? hresult]
      exact ⟨w, h, stage_of_result? hresult⟩
    | case2 w t hresult ih =>
      rw [finish_of_not_over hresult]
      exact ih (step_induction hstep h .proceed)
  | cons answer script ih => exact ih (step_induction hstep h answer)

end AtomicWrite

end LinearLight
