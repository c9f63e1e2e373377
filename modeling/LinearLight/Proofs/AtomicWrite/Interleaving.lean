import LinearLight.AtomicWrite.Interleaving
import LinearLight.Proofs.AtomicWrite.Steps
import LinearLight.Proofs.FileTree.Arrangement

/-!
# Writes at the same time leave no half-written file

Any number of writes share a tree and take their steps in any order. The invariant: each write that
has a staging file owns it, which means that one entry names it, that it was not there at the start,
that no other write has the same, and that it holds what the stage of its write says. So whatever a
call changes is a staging file, or is complete when it gets its name.

## Main definitions

- `AtomicWrite.Owns`: a write and its staging file
- `Concurrent.Kept`: what the tree keeps from the start
- `Concurrent.Invariant`: both, for all writes

## Main statements

- `Concurrent.Invariant.step`, `Concurrent.Invariant.run`
- `Concurrent.run_no_half_written`: every entry is as it was or a complete file of one of the writes
-/

namespace LinearLight

variable {t now after : FileTree} {calls : List AtomicWrite} {w : AtomicWrite} {stage : Stage}

namespace AtomicWrite

/-- A write is one of some calls, whatever stage it has come to. -/
def OneOf (calls : List AtomicWrite) (w : AtomicWrite) : Prop :=
  ∃ v ∈ calls, w = { v with stage := w.stage }

theorem OneOf.withStage (h : w.OneOf calls) (stage : Stage) :
    OneOf calls { w with stage := stage } := by
  obtain ⟨v, hv, heq⟩ := h
  refine ⟨v, hv, ?_⟩
  rw [heq]

/-- A write among others and its staging file. -/
structure Owns (t : FileTree) (w : AtomicWrite) (now : FileTree) (staging : Staging) : Prop where
  name : staging.name = w.stagingName
  directory : t.resolveDirectory w.path.stagingDirectory = .ok staging.directory
  entry : now.entry? staging.directory staging.name = some staging.file
  only : ∀ d name, now.entry? d name = some staging.file →
    d = staging.directory ∧ name = staging.name
  new : t.node? staging.file = none
  file : ∃ f, now.file? staging.file = some f ∧ w.stage.Holds w.contents f

variable {staging : Staging}

/-- A change elsewhere in the tree does not touch a staging file. -/
theorem Owns.frame (h : w.Owns t now staging)
    (hentry : after.entry? staging.directory staging.name =
      now.entry? staging.directory staging.name)
    (honly : ∀ d name, after.entry? d name = some staging.file →
      now.entry? d name = some staging.file)
    (hfile : after.file? staging.file = now.file? staging.file) : w.Owns t after staging :=
  { h with
    entry := hentry.trans h.entry
    only := fun d name hd => h.only d name (honly d name hd)
    file := hfile ▸ h.file }

theorem Owns.isDirectory (h : w.Owns t now staging) : now.isDirectory staging.file = false := by
  obtain ⟨f, hf, -⟩ := h.file
  exact FileTree.isDirectory_of_file? hf

theorem Owns.file_ne_fresh (h : w.Owns t now staging) : staging.file ≠ now.fresh := by
  obtain ⟨f, hf, -⟩ := h.file
  exact FileTree.ne_fresh_of_node? (FileTree.file?_eq_some.mp hf)

/-- Staging files that are not the same do not go by the same entry. -/
theorem Owns.entry_ne (h : w.Owns t now staging) {v : AtomicWrite} {other : Staging}
    (hv : v.Owns t now other) (hne : other.file ≠ staging.file) :
    ¬ (other.directory = staging.directory ∧ other.name = staging.name) := by
  rintro ⟨hd, hname⟩
  have hentry := hv.entry
  rw [hd, hname, h.entry] at hentry
  exact hne (Option.some.inj hentry).symm

/-- A name that a call gives to its staging file. -/
def IsStagingName (calls : List AtomicWrite) (name : Name) : Prop :=
  ∃ w ∈ calls, name = w.stagingName

theorem OneOf.isStagingName (h : w.OneOf calls) : IsStagingName calls w.stagingName := by
  obtain ⟨v, hv, heq⟩ := h
  exact ⟨v, hv, by rw [heq]⟩

theorem Owns.isStagingName (h : w.Owns t now staging) (hw : w.OneOf calls) :
    IsStagingName calls staging.name :=
  h.name ▸ hw.isStagingName

/-- An entry that names the complete and synced file of a call, and was named by the path of that
call at the start. -/
def Published (t : FileTree) (calls : List AtomicWrite) (now : FileTree) (d : NodeId)
    (name : Name) : Prop :=
  ∃ w ∈ calls, t.namedEntry? w.path = some (d, name) ∧
    now.fileAt? (d, name) = some ⟨w.contents, writtenMode, true⟩

theorem Published.mono {d : NodeId} {name : Name} (h : Published t calls now d name)
    (hfile : after.fileAt? (d, name) = now.fileAt? (d, name)) : Published t calls after d name := by
  obtain ⟨w, hw, hentry, hf⟩ := h
  exact ⟨w, hw, hentry, hfile.trans hf⟩

theorem OneOf.published (h : w.OneOf calls) {d : NodeId} {name : Name}
    (hentry : t.namedEntry? w.path = some (d, name))
    (hfile : now.fileAt? (d, name) = some ⟨w.contents, writtenMode, true⟩) :
    Published t calls now d name := by
  obtain ⟨v, hv, heq⟩ := h
  rw [heq] at hentry hfile
  exact ⟨v, hv, hentry, hfile⟩

/-- What the tree keeps from the start: nothing is changed but names of staging files, and entries
that name complete files. -/
structure Kept (t : FileTree) (calls : List AtomicWrite) (now : FileTree) : Prop where
  wellFormed : now.WellFormed
  same : t.SameExcept now fun d name => IsStagingName calls name ∨ Published t calls now d name

/-- The tree after some calls. -/
abbrev Kept.tree (h : Kept t calls now) : FileTree.Sound := ⟨now, h.wellFormed⟩

/-- An entry that is changed is a staging file's, or it is complete already, or it has become so. -/
theorem Kept.of_sameExcept (now : FileTree) {changed : NodeId → Name → Prop}
    (hwellFormed : after.WellFormed) (hsame : t.SameExcept after changed)
    (hchanged : ∀ d name, changed d name → ¬ IsStagingName calls name →
      Published t calls after d name ∨
        Published t calls now d name ∧ after.fileAt? (d, name) = now.fileAt? (d, name)) :
    Kept t calls after := by
  refine ⟨hwellFormed, hsame.mono fun d name h => ?_⟩
  by_cases hname : IsStagingName calls name
  · exact .inl hname
  · rcases hchanged d name h hname with hpublished | ⟨hpublished, hfile⟩
    · exact .inr hpublished
    · exact .inr (hpublished.mono hfile)

/-- What one call of a write does among the calls of others. -/
structure Advances (t : FileTree) (calls : List AtomicWrite) (w : AtomicWrite) (now : FileTree)
    (stage : Stage) (after : FileTree) : Prop where
  kept : Kept t calls after
  owns : ∀ {staging}, stage.staging? = some staging →
    Owns t { w with stage := stage } after staging
  /-- The staging files of other writes are not touched. -/
  others : ∀ {v : AtomicWrite} {staging}, v.OneOf calls → v.Owns t now staging →
    (∀ own, w.stage.staging? = some own → staging.file ≠ own.file) → v.Owns t after staging
  /-- The staging file of another write does not become that of this one. -/
  apart : ∀ {v : AtomicWrite} {staging own}, v.Owns t now staging →
    (∀ own, w.stage.staging? = some own → staging.file ≠ own.file) →
    stage.staging? = some own → staging.file ≠ own.file

/-- A call that leaves the tree alone. -/
theorem advances_still (hkept : Kept t calls now)
    (howns : ∀ {staging}, stage.staging? = some staging →
      w.stage.staging? = some staging ∧ Owns t { w with stage := stage } now staging) :
    Advances t calls w now stage now where
  kept := hkept
  owns h := (howns h).2
  others _ h _ := h
  apart _ h hstage := h _ (howns hstage).1

/-- The call that makes the staging file. -/
theorem advances_create {t : FileTree.Sound} (hkept : Kept t calls now) (hw : w.OneOf calls)
    (hcreate : w.create now = .ok (staging, after)) :
    Advances t calls w now (writingStage staging w.contents) after := by
  obtain ⟨hdirectory, hunused, hname, hfile, rfl⟩ := of_create_eq_ok hcreate
  have hd := hkept.tree.isDirectory_of_resolveDirectory hdirectory
  have hplaced := FileTree.replaced_place_of_unused hd hunused ⟨[], stagingMode, false⟩
  -- nothing but the new entry names the new node
  have hnew : ∀ {d name}, FileTree.entry? (now.place staging.directory w.stagingName
      (.file ⟨[], stagingMode, false⟩)) d name = some now.fresh →
      d = staging.directory ∧ name = w.stagingName := by
    intro d name h
    by_contra hne
    rw [FileTree.entry?_place _ hd rfl, if_neg hne] at h
    exact hkept.tree.entry?_ne_fresh d name h
  refine ⟨.of_sameExcept now (hkept.tree.placed _ _ _ rfl).wellFormed
    (hkept.same.trans hplaced.others) ?_, ?_, ?_, ?_⟩
  · intro d name hchanged hplain
    have hne : ¬ (d = staging.directory ∧ name = w.stagingName) := by
      rintro ⟨-, rfl⟩
      exact hplain hw.isStagingName
    refine .inr ⟨(hchanged.resolve_right hne).resolve_left hplain, ?_⟩
    refine FileTree.fileAt?_congr (hplaced.others.entry d name hne) fun id hid => ?_
    have hfresh : id ≠ now.fresh := fun e => hkept.tree.entry?_ne_fresh d name (e ▸ hid)
    rw [FileTree.file?_place, if_neg hfresh]
  · intro other hother
    rw [staging?_writingStage] at hother
    obtain rfl := Option.some.inj hother
    refine ⟨hname, hkept.same.resolveDirectory hdirectory, ?_, ?_, ?_, ?_⟩
    · rw [hname, hfile, FileTree.entry?_place _ hd rfl, if_pos ⟨rfl, rfl⟩]
    · rw [hname, hfile]
      exact fun d name => hnew
    · -- a node that was there at the start would still be there, and the number not be free
      rw [hfile]
      cases hnode : t.node? now.fresh with
      | none => rfl
      | some node => exact absurd (hkept.same.isSome_node? hnode) (by simp)
    · refine ⟨⟨[], stagingMode, false⟩, by simp [hfile], ?_⟩
      exact holds_writingStage _ (List.nil_append _)
  · intro v other _ hv _
    have hfresh := hv.file_ne_fresh
    refine hv.frame (hplaced.others.entry _ _ ?_) (fun d name h => ?_) (by simp [hfresh])
    · rintro ⟨hd', hname'⟩
      have := hv.entry
      rw [hd', hname', hunused] at this
      cases this
    · rw [FileTree.entry?_place _ hd rfl] at h
      split at h
      · exact absurd (Option.some.inj h).symm hfresh
      · exact h
  · intro v other own hv _ hown
    rw [staging?_writingStage] at hown
    obtain rfl := Option.some.inj hown
    rw [hfile]
    exact hv.file_ne_fresh

/-- A call that changes the staging file. -/
theorem advances_modifyFile (hkept : Kept t calls now) (hw : w.OneOf calls)
    (hstaging : w.stage.staging? = some staging) (howns : w.Owns t now staging)
    (hstage : stage.staging? = some staging) {change : File → File}
    (hchange : ∀ f, w.stage.Holds w.contents f → stage.Holds w.contents (change f)) :
    Advances t calls w now stage (now.modifyFile staging.file change) := by
  refine ⟨.of_sameExcept now (hkept.tree.fileModified _ _).wellFormed
    (hkept.same.modifyFile howns.new change) ?_, ?_, ?_, ?_⟩
  · intro d name hchanged hplain
    refine .inr ⟨hchanged.resolve_left hplain, ?_⟩
    refine FileTree.fileAt?_congr (FileTree.entry?_modifyFile ..) fun id hid => ?_
    rw [FileTree.file?_modifyFile, if_neg]
    rintro rfl
    exact hplain ((howns.only d name hid).2 ▸ howns.isStagingName hw)
  · intro other hother
    obtain rfl := Option.some.inj (hstage.symm.trans hother)
    obtain ⟨f, hf, hholds⟩ := howns.file
    refine ⟨howns.name, howns.directory, ?_, ?_, howns.new, change f, ?_, hchange f hholds⟩
    · rw [FileTree.entry?_modifyFile]
      exact howns.entry
    · intro d name h
      rw [FileTree.entry?_modifyFile] at h
      exact howns.only d name h
    · rw [FileTree.file?_modifyFile, if_pos rfl, hf]
      rfl
  · intro v other _ hv hapart
    refine hv.frame (FileTree.entry?_modifyFile ..) (fun d name h => ?_) ?_
    · rwa [FileTree.entry?_modifyFile] at h
    · rw [FileTree.file?_modifyFile, if_neg (hapart _ hstaging)]
  · intro v other own _ hapart hown
    obtain rfl := Option.some.inj (hstage.symm.trans hown)
    exact hapart _ hstaging

/-- The call that moves the staging file to its target. -/
theorem advances_save {t : FileTree.Sound} (hkept : Kept t calls now) (hw : w.OneOf calls)
    (hlast : ∀ v ∈ calls, w.path.names.getLast? ≠ some v.stagingName)
    (hstage : w.stage = .saving staging) (howns : w.Owns t now staging)
    (hrename : now.rename staging.directory staging.name staging.file w.path = .ok after) :
    Advances t calls w now (.finished (.ok ())) after := by
  obtain ⟨d, name, htarget, rfl⟩ := FileTree.of_rename_eq_ok hrename
  obtain ⟨f, hf, hholds⟩ := howns.file
  rw [hstage] at hholds
  obtain rfl := hholds
  have hd := hkept.tree.isDirectory_of_renameTarget htarget
  obtain ⟨-, -, hold⟩ := FileTree.renameTarget_eq_ok_iff.mp htarget
  -- the target is no staging file: neither this one, whose name it does not have, nor another
  have hplain : ¬ IsStagingName calls name := by
    rintro ⟨v, hv, rfl⟩
    exact hlast v hv (FileTree.getLast?_of_renameTarget htarget).1
  have hne : ∀ {other}, IsStagingName calls other → other ≠ name :=
    fun hother e => hplain (e ▸ hother)
  have hown := howns.isStagingName hw
  have hnotYet : now.entry? d name ≠ some staging.file := fun h =>
    hne hown (howns.only d name h).2.symm
  rw [if_neg hnotYet]
  have hentry : ∀ d' name', FileTree.entry? ((now.setEntry d name staging.file).removeEntry
      staging.directory staging.name) d' name' =
      if d' = staging.directory ∧ name' = staging.name then none
      else if d' = d ∧ name' = name then some staging.file else now.entry? d' name' := by
    intro d' name'
    rw [FileTree.entry?_removeEntry, FileTree.entry?_setEntry hd]
  have hset := FileTree.sameExcept_setEntry hd hold (Option.isSome_iff_exists.mpr ⟨_, hf⟩)
  have hplaced : ∀ id, FileTree.entry? (now.setEntry d name staging.file) staging.directory
      staging.name = some id → (now.setEntry d name staging.file).isDirectory id = false := by
    intro id hid
    rw [FileTree.entry?_setEntry hd, if_neg fun h => hne hown h.2, howns.entry] at hid
    rw [FileTree.isDirectory_setEntry, ← Option.some.inj hid]
    exact howns.isDirectory
  have hremove := FileTree.sameExcept_removeEntry hplaced
  have hnode : (now.node? staging.file).isSome := by
    rw [FileTree.file?_eq_some.mp hf]
    rfl
  let moved := (hkept.tree.entrySet d name hnode).entryRemoved staging.directory staging.name
  refine ⟨.of_sameExcept now moved.wellFormed ((hkept.same.trans hset).trans hremove) ?_,
    ?_, ?_, ?_⟩
  · intro d' name' hchanged hplain'
    have hother : name' ≠ staging.name := fun e => hplain' (e ▸ hown)
    by_cases hnamed : d' = d ∧ name' = name
    · -- the entry that the path of this write named at the start, complete now
      obtain ⟨rfl, rfl⟩ := hnamed
      obtain ⟨rfl, hnamed⟩ := t.namedEntry?_of_renameTarget howns.directory
        (hkept.same.renameTarget htarget)
      refine .inl (hw.published hnamed (FileTree.fileAt?_eq_some.mpr ⟨staging.file, ?_, ?_⟩))
      · rw [hentry, if_neg fun h => hother h.2, if_pos ⟨rfl, rfl⟩]
      · simpa using hf
    · refine .inr ⟨?_, FileTree.fileAt?_congr ?_ fun id _ => by simp⟩
      · rcases hchanged with ((hstaging | hpublished) | hset) | hremoved
        · exact absurd hstaging hplain'
        · exact hpublished
        · exact absurd hset hnamed
        · exact absurd hremoved.2 hother
      · rw [hentry, if_neg fun h => hother h.2, if_neg hnamed]
  · intro other hother
    cases hother
  · intro v other hv hvowns hapart
    have hfile := hapart staging (by rw [hstage]; rfl)
    refine hvowns.frame ?_ (fun d' name' h => ?_) (by simp)
    · rw [hentry, if_neg (howns.entry_ne hvowns hfile), if_neg]
      exact fun h => hne (hvowns.isStagingName hv) h.2
    · rw [hentry] at h
      split at h
      · cases h
      · split at h
        · exact absurd (Option.some.inj h).symm hfile
        · exact h
  · intro v other own _ _ hown
    cases hown

/-- The call that takes the staging file away. -/
theorem advances_discard (hkept : Kept t calls now) (hw : w.OneOf calls)
    (hstaging : w.stage.staging? = some staging) (howns : w.Owns t now staging)
    (result : Except WriteError Unit) :
    Advances t calls w now (.finished result)
      ((now.removeEntry staging.directory staging.name).remove staging.file) := by
  have hdir :
      (now.removeEntry staging.directory staging.name).isDirectory staging.file = false := by
    rw [FileTree.isDirectory_removeEntry]
    exact howns.isDirectory
  have hplaced : ∀ id, now.entry? staging.directory staging.name = some id →
      now.isDirectory id = false := by
    intro id hid
    rw [howns.entry] at hid
    exact Option.some.inj hid ▸ howns.isDirectory
  have hremoved := FileTree.sameExcept_removeEntry hplaced
  have hunnamed : ∀ d name,
      FileTree.entry? (now.removeEntry staging.directory staging.name) d name ≠
        some staging.file := by
    intro d name h
    rw [FileTree.entry?_removeEntry] at h
    split at h
    · cases h
    · next hne => exact hne (howns.only d name h)
  refine ⟨.of_sameExcept now ((hkept.tree.entryRemoved _ _).removed hdir hunnamed).wellFormed
    ((hkept.same.trans hremoved).remove howns.new hunnamed hdir) ?_, ?_, ?_, ?_⟩
  · intro d name hchanged hplain
    have hne : ¬ (d = staging.directory ∧ name = staging.name) := fun h =>
      hplain (h.2 ▸ howns.isStagingName hw)
    refine .inr ⟨(hchanged.resolve_right hne).resolve_left hplain, ?_⟩
    refine FileTree.fileAt?_congr ?_ fun id hid => ?_
    · rw [FileTree.entry?_remove_of_not_directory hdir, FileTree.entry?_removeEntry, if_neg hne]
    · have hfile : id ≠ staging.file := fun e => hne (howns.only d name (e ▸ hid))
      rw [FileTree.file?_remove_of_ne hfile, FileTree.file?_removeEntry]
  · intro other hother
    cases hother
  · intro v other hv hvowns hapart
    have hfile := hapart staging hstaging
    refine hvowns.frame ?_ (fun d name h => ?_) ?_
    · rw [FileTree.entry?_remove_of_not_directory hdir, FileTree.entry?_removeEntry,
        if_neg (howns.entry_ne hvowns hfile)]
    · rw [FileTree.entry?_remove_of_not_directory hdir, FileTree.entry?_removeEntry] at h
      split at h
      · cases h
      · exact h
    · rw [FileTree.file?_remove_of_ne hfile, FileTree.file?_removeEntry]
  · intro v other own _ _ hown
    cases hown

/-- Each call of a write does no more than is allowed among the calls of others. -/
theorem Moves.advances {t : FileTree.Sound} (hkept : Kept t calls now) (hw : w.OneOf calls)
    (hlast : ∀ v ∈ calls, w.path.names.getLast? ≠ some v.stagingName)
    (howns : ∀ {staging}, w.stage.staging? = some staging → w.Owns t now staging)
    (h : w.Moves now stage after) : Advances t calls w now stage after := by
  cases h with
  | stay => exact advances_still hkept fun hstaging => ⟨hstaging, howns hstaging⟩
  | refuse _ _ => exact advances_still hkept fun hstaging => nomatch hstaging
  | create _ hcreate => exact advances_create hkept hw hcreate
  | modify hstaging hstage hchange =>
    exact advances_modifyFile hkept hw hstaging (howns hstaging) hstage hchange
  | save hstage hrename =>
    exact advances_save hkept hw hlast hstage (howns (by rw [hstage]; rfl)) hrename
  | abandon hstaging error =>
    refine advances_still hkept fun {other} hother => ?_
    obtain rfl := Option.some.inj hother
    obtain ⟨f, hf, hholds⟩ := (howns hstaging).file
    exact ⟨hstaging, { howns hstaging with file := ⟨f, hf, hholds.data_isPrefix hstaging⟩ }⟩
  | @discard staging error hstage =>
    have hstaging : w.stage.staging? = some staging := by rw [hstage]; rfl
    exact advances_discard hkept hw hstaging (howns hstaging) _

/-- A step is a call of the write, unless the staging file is left behind. -/
theorem stepOrLeave_cases (w : AtomicWrite) (t : FileTree) (answer : Answer) :
    w.stepOrLeave t answer = w.step t answer ∨
      ∃ error, w.stepOrLeave t answer = ({ w with stage := .finished (.error error) }, t) := by
  unfold stepOrLeave
  split
  · next error _ _ => exact .inr ⟨error, rfl⟩
  · exact .inl rfl

theorem stepOrLeave_fst (w : AtomicWrite) (t : FileTree) (answer : Answer) :
    (w.stepOrLeave t answer).1 = { w with stage := (w.stepOrLeave t answer).1.stage } := by
  rcases w.stepOrLeave_cases t answer with h | ⟨error, h⟩
  · rw [h]
    exact (w.step_moves t answer).2
  · rw [h]

theorem advances_stepOrLeave {t : FileTree.Sound} (hkept : Kept t calls now) (hw : w.OneOf calls)
    (hlast : ∀ v ∈ calls, w.path.names.getLast? ≠ some v.stagingName)
    (howns : ∀ {staging}, w.stage.staging? = some staging → w.Owns t now staging)
    (answer : Answer) :
    Advances t calls w now (w.stepOrLeave now answer).1.stage (w.stepOrLeave now answer).2 := by
  rcases w.stepOrLeave_cases now answer with h | ⟨error, h⟩
  · rw [h]
    exact (w.step_moves now answer).1.advances hkept hw hlast howns
  · rw [h]
    exact advances_still hkept fun hstaging => nomatch hstaging

end AtomicWrite

namespace Concurrent

open AtomicWrite

/-- What holds of writes and the tree they share, whatever calls have been made. -/
structure Invariant (t : FileTree) (calls : List AtomicWrite) (s : Concurrent) : Prop where
  kept : Kept t calls s.tree
  oneOf : ∀ {i : Nat} {w}, s.writes[i]? = some w → OneOf calls w
  owns : ∀ {i : Nat} {w staging}, s.writes[i]? = some w → w.stage.staging? = some staging →
    Owns t w s.tree staging
  /-- No two writes have the same staging file. -/
  apart : ∀ {i j : Nat} {v w a b}, i ≠ j → s.writes[i]? = some v → s.writes[j]? = some w →
    v.stage.staging? = some a → w.stage.staging? = some b → a.file ≠ b.file

/-- Writes that have not begun. -/
theorem Invariant.start (t : FileTree.Sound) (hbegun : ∀ w ∈ calls, w.stage = .creating) :
    Invariant t calls ⟨t, calls⟩ := by
  have hnone : ∀ {i : Nat} {w staging}, calls[i]? = some w → w.stage.staging? ≠ some staging := by
    intro i w staging hw
    rw [hbegun w (List.mem_of_getElem? hw)]
    exact nofun
  refine ⟨⟨t.wellFormed, .refl t _⟩, fun hw => ⟨_, List.mem_of_getElem? hw, rfl⟩, ?_, ?_⟩
  · exact fun hw hstaging => absurd hstaging (hnone hw)
  · exact fun _ hv _ hstaging => absurd hstaging (hnone hv)

/-- What one write is allowed to do keeps the invariant for all. -/
theorem Invariant.set {s : Concurrent} (h : Invariant t calls s) {i : Nat}
    (hw : s.writes[i]? = some w) (hadvances : Advances t calls w s.tree stage after) :
    Invariant t calls ⟨after, s.writes.set i { w with stage := stage }⟩ := by
  have hi : i < s.writes.length := (List.getElem?_eq_some_iff.mp hw).1
  have hself : ∀ {v}, (s.writes.set i { w with stage := stage })[i]? = some v →
      v = { w with stage := stage } := by
    intro v hv
    rw [List.getElem?_set_self hi] at hv
    exact (Option.some.inj hv).symm
  have hother : ∀ {j : Nat}, i ≠ j →
      (s.writes.set i { w with stage := stage })[j]? = s.writes[j]? := fun hne =>
    List.getElem?_set_ne hne
  have hapart : ∀ {j : Nat} {v staging}, i ≠ j → s.writes[j]? = some v →
      v.stage.staging? = some staging →
      ∀ own, w.stage.staging? = some own → staging.file ≠ own.file :=
    fun hne hv hstaging own hown => h.apart hne.symm hv hw hstaging hown
  -- each write is the one that has moved, or one of the others
  refine ⟨hadvances.kept, fun {j v} hv => ?_, fun {j v staging} hv hstaging => ?_,
    fun {j k u v a b} hne hu hv ha hb => ?_⟩
  · by_cases hj : i = j
    · subst hj
      rw [hself hv]
      exact (h.oneOf hw).withStage stage
    · rw [hother hj] at hv
      exact h.oneOf hv
  · by_cases hj : i = j
    · subst hj
      obtain rfl := hself hv
      exact hadvances.owns hstaging
    · rw [hother hj] at hv
      exact hadvances.others (h.oneOf hv) (h.owns hv hstaging) (hapart hj hv hstaging)
  · by_cases hj : i = j
    · subst hj
      obtain rfl := hself hu
      rw [hother hne] at hv
      exact (hadvances.apart (h.owns hv hb) (hapart hne hv hb) ha).symm
    · rw [hother hj] at hu
      by_cases hk : i = k
      · subst hk
        obtain rfl := hself hv
        exact hadvances.apart (h.owns hu ha) (hapart hj hu ha) hb
      · rw [hother hk] at hv
        exact h.apart hne hu hv ha hb

/-- A call of one write keeps the invariant. -/
theorem Invariant.step {t : FileTree.Sound}
    (hlast : ∀ w ∈ calls, ∀ v ∈ calls, w.path.names.getLast? ≠ some v.stagingName)
    {s : Concurrent} (h : Invariant t calls s) (turn : Nat × Answer) :
    Invariant t calls (s.step turn) := by
  obtain ⟨i, answer⟩ := turn
  unfold Concurrent.step
  split
  · exact h
  · next w hw =>
    have hlast' : ∀ v ∈ calls, w.path.names.getLast? ≠ some v.stagingName := by
      obtain ⟨u, hu, heq⟩ := h.oneOf hw
      rw [heq]
      exact hlast u hu
    have hset := h.set hw
      (advances_stepOrLeave h.kept (h.oneOf hw) hlast' (h.owns hw) answer)
    rwa [← w.stepOrLeave_fst s.tree answer] at hset

/-- Whatever calls are made, in whatever order, however they are answered, the invariant holds. -/
theorem Invariant.run {t : FileTree.Sound}
    (hlast : ∀ w ∈ calls, ∀ v ∈ calls, w.path.names.getLast? ≠ some v.stagingName)
    {s : Concurrent} (h : Invariant t calls s) (schedule : Schedule) :
    Invariant t calls (s.run schedule) := by
  induction schedule generalizing s with
  | nil => exact h
  | cons turn schedule ih => exact ih (h.step hlast turn)

/-- No half-written output at any moment: writes that share a tree, with steps in any order, failing
or not, and crashes anywhere. Every entry but those of staging files is as it was, or it is the
entry that the path of one of the writes named and names the complete and synced contents of that
write, with the final permissions. No directory is gone, also not by name, and no file or link is
modified. -/
theorem run_no_half_written {t : FileTree.Sound} (hbegun : ∀ w ∈ calls, w.stage = .creating)
    (hlast : ∀ w ∈ calls, ∀ v ∈ calls, w.path.names.getLast? ≠ some v.stagingName)
    (schedule : Schedule) :
    let now := (Concurrent.run ⟨t, calls⟩ schedule).tree
    (∀ d name, (∀ w ∈ calls, name ≠ w.stagingName) →
      now.entry? d name = t.entry? d name ∨
        ∃ w ∈ calls, t.namedEntry? w.path = some (d, name) ∧
          now.fileAt? (d, name) = some ⟨w.contents, writtenMode, true⟩) ∧
    (∀ d parent entries, t.directory? d = some (parent, entries) →
      ∃ entries', now.directory? d = some (parent, entries')) ∧
    (∀ d name id, t.entry? d name = some id → t.isDirectory id → now.entry? d name = some id) ∧
    ∀ id node, t.node? id = some node → node.isDirectory = false → now.node? id = some node := by
  intro now
  have hsame := ((Invariant.start t hbegun).run hlast schedule).kept.same
  refine ⟨fun d name hname => ?_, hsame.directory, hsame.subdirectory, hsame.node⟩
  by_cases hpublished : Published t calls now d name
  · exact .inr hpublished
  · refine .inl (hsame.entry d name ?_)
    rintro (⟨w, hw, hstaging⟩ | h)
    · exact hname w hw hstaging
    · exact hpublished h

/-- Of two writes to one file, the first is done and the second has crashed in the middle. -/
theorem run_no_half_written_of_two :
    let t := FileTree.Sound.bare.after (.putFile ⟨[0x78]⟩ [0x6F] 0o600)
    let calls : List AtomicWrite :=
      [{ path := ⟨[0x78]⟩, contents := [0x61], stagingName := [0x74] },
        { path := ⟨[0x78]⟩, contents := [0x62, 0x63], stagingName := [0x75] }]
    let schedule : Schedule :=
      [(0, .proceed), (1, .proceed), (0, .proceed), (1, .accept 1), (0, .proceed), (0, .proceed),
        (0, .proceed)]
    let now := (Concurrent.run ⟨t, calls⟩ schedule).tree
    (∀ w ∈ calls, w.stage = .creating) ∧
      (∀ w ∈ calls, ∀ v ∈ calls, w.path.names.getLast? ≠ some v.stagingName) ∧
      ∀ d name, (∀ w ∈ calls, name ≠ w.stagingName) →
        now.entry? d name = t.entry? d name ∨
          ∃ w ∈ calls, t.namedEntry? w.path = some (d, name) ∧
            now.fileAt? (d, name) = some ⟨w.contents, writtenMode, true⟩ := by
  intro t calls schedule now
  have hbegun : ∀ w ∈ calls, w.stage = .creating := by simp [calls]
  have hlast : ∀ w ∈ calls, ∀ v ∈ calls, w.path.names.getLast? ≠ some v.stagingName := by
    decide
  exact ⟨hbegun, hlast, (run_no_half_written hbegun hlast schedule).1⟩

end Concurrent

end LinearLight
