import LinearLight.Proofs.AtomicWrite.AllOrNothing

/-!
# The trees that a write goes through

The trees between the calls of a run, the first and the last included. What calls keep holds of all
of them.

## Main definitions

- `AtomicWrite.trees`: the trees of a run
- `AtomicWrite.Reaches`: the stages and trees that a run comes to

## Main statements

- `AtomicWrite.getLast?_trees`: the last one is the tree that the run leaves
- `AtomicWrite.Reaches.induction`: what calls keep holds wherever a run comes to
- `AtomicWrite.undisturbed_of_mem_trees`: each is the tree of a write at some stage
-/

namespace LinearLight

namespace AtomicWrite

variable {t tree : FileTree} {w : AtomicWrite}

/-- The trees between the calls that are left when all of them proceed. -/
def finishTrees (w : AtomicWrite) (t : FileTree) : List FileTree :=
  match _h : w.result? with
  | some _ => [t]
  | none => t :: (w.step t .proceed).1.finishTrees (w.step t .proceed).2
termination_by stepsLeft w.stage
decreasing_by exact stepsLeft_step_lt w t (stepsLeft_ne_zero (by assumption))

/-- The trees between the calls of a run. -/
def trees (w : AtomicWrite) (t : FileTree) : (script : List Answer) → List FileTree
  | [] => w.finishTrees t
  | answer :: script => t :: (w.step t answer).1.trees (w.step t answer).2 script

theorem finishTrees_of_result? {result : Except WriteError Unit} (h : w.result? = some result)
    (t : FileTree) : w.finishTrees t = [t] := by
  rw [finishTrees]
  split
  · rfl
  · next h' => simp [h] at h'

theorem finishTrees_of_not_over (h : w.result? = none) (t : FileTree) :
    w.finishTrees t = t :: (w.step t .proceed).1.finishTrees (w.step t .proceed).2 := by
  rw [finishTrees]
  split
  · next h' => simp [h] at h'
  · rfl

theorem getLast?_cons_of_getLast?_eq_some {α : Type} {a last : α} {l : List α}
    (h : l.getLast? = some last) : (a :: l).getLast? = some last := by
  rw [List.getLast?_cons, h]
  rfl

/-- The last tree is the one that the run leaves. -/
theorem getLast?_trees (w : AtomicWrite) (t : FileTree) (script : List Answer) :
    (w.trees t script).getLast? = some (w.run t script).2 := by
  induction script generalizing w t with
  | nil =>
    -- as the run does, the trees go on by recursion on the steps that are left
    rw [run, trees]
    induction w, t using finish.induct with
    | case1 w t result hresult =>
      rw [finish_of_result? hresult, finishTrees_of_result? hresult]
      rfl
    | case2 w t hresult ih =>
      rw [finish_of_not_over hresult, finishTrees_of_not_over hresult]
      exact getLast?_cons_of_getLast?_eq_some ih
  | cons answer script ih => exact getLast?_cons_of_getLast?_eq_some (ih _ _)

/-- The stages and trees that a run comes to, the first and the last included. -/
inductive Reaches : AtomicWrite → FileTree → List Answer → AtomicWrite → FileTree → Prop where
  | start {w t script} : Reaches w t script w t
  | answered {w t answer script v now}
      (h : Reaches (w.step t answer).1 (w.step t answer).2 script v now) :
      Reaches w t (answer :: script) v now
  | proceeded {w t v now} (hresult : w.result? = none)
      (h : Reaches (w.step t .proceed).1 (w.step t .proceed).2 [] v now) : Reaches w t [] v now

/-- What moves keep holds wherever a run comes to. -/
theorem Reaches.induction {P : AtomicWrite → FileTree → Prop}
    (hstep : ∀ w t stage after, P w t → w.Moves t stage after → P { w with stage := stage } after)
    {script : List Answer} {v : AtomicWrite} (hreaches : w.Reaches t script v tree) (h : P w t) :
    P v tree := by
  induction hreaches with
  | start => exact h
  | answered _ ih => exact ih (step_induction hstep h _)
  | proceeded _ _ ih => exact ih (step_induction hstep h .proceed)

/-- Every tree between the calls is one that the run comes to. -/
theorem exists_reaches_of_mem_trees {script : List Answer} (htree : tree ∈ w.trees t script) :
    ∃ v, w.Reaches t script v tree := by
  induction script generalizing w t with
  | nil =>
    rw [trees] at htree
    induction w, t using finish.induct with
    | case1 w t result hresult =>
      rw [finishTrees_of_result? hresult] at htree
      exact ⟨w, List.mem_singleton.mp htree ▸ .start⟩
    | case2 w t hresult ih =>
      rw [finishTrees_of_not_over hresult] at htree
      rcases List.mem_cons.mp htree with rfl | htree
      · exact ⟨w, .start⟩
      · obtain ⟨v, hv⟩ := ih htree
        exact ⟨v, .proceeded hresult hv⟩
  | cons answer script ih =>
    rcases List.mem_cons.mp htree with rfl | htree
    · exact ⟨w, .start⟩
    · obtain ⟨v, hv⟩ := ih htree
      exact ⟨v, .answered hv⟩

/-- Every tree that a write goes through is that of the write at some stage. -/
theorem undisturbed_of_mem_trees {t : FileTree.Sound} (hstage : w.stage = .creating)
    {script : List Answer} (htree : tree ∈ w.trees t script) :
    ∃ v, v.path = w.path ∧ v.contents = w.contents ∧ Undisturbed t v tree := by
  obtain ⟨v, hreaches⟩ := exists_reaches_of_mem_trees htree
  exact ⟨v, hreaches.induction
    (P := fun v now => v.path = w.path ∧ v.contents = w.contents ∧ Undisturbed t v now)
    (fun _ _ _ _ ⟨hpath, hcontents, h⟩ hmoves => ⟨hpath, hcontents, h.moves hmoves⟩)
    ⟨rfl, rfl, .begun hstage⟩⟩

/-- At no stage has anything changed but entries that name a beginning of the contents. -/
theorem Undisturbed.sameExcept {t : FileTree.Sound} (h : Undisturbed t w tree) :
    t.SameExcept tree fun d name =>
      ∃ f, tree.fileAt? (d, name) = some f ∧ f.data <+: w.contents := by
  cases h with
  | untouched => exact .refl t _
  | @staged staging f hstaging _ hdirectory hunused hholds =>
    have hd := t.isDirectory_of_resolveDirectory hdirectory
    have hplaced := FileTree.replaced_place_of_unused hd hunused f
    refine hplaced.others.mono ?_
    rintro d name ⟨rfl, rfl⟩
    exact ⟨f, hplaced.fileAt?, hholds.data_isPrefix hstaging⟩
  | @saved d name _ _ htarget =>
    have hd := t.isDirectory_of_renameTarget htarget
    obtain ⟨-, -, hname⟩ := FileTree.renameTarget_eq_ok_iff.mp htarget
    have hplaced := FileTree.replaced_place hd hname ⟨w.contents, writtenMode, true⟩
    refine hplaced.others.mono ?_
    rintro d name ⟨rfl, rfl⟩
    exact ⟨_, hplaced.fileAt?, List.prefix_rfl⟩

end AtomicWrite

end LinearLight
