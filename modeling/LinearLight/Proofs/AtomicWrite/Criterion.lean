import LinearLight.Proofs.AtomicWrite.Success
import LinearLight.Proofs.Path.Ending

/-!
# Which paths can be written to

When the system grants every call, a tree and a path decide alone whether a write succeeds: the
parent of the path, as it is cut from the text, has to lead to a directory, and what stands behind
the last slash has to be a name that is no directory there. The two are read in different ways, and
still there is no third way to fail.

## Main definitions

- `FileTree.WithinLimits`: the paths and names that a write is about are not too long

## Main statements

- `FileTree.exists_renameTarget_iff`: the paths that a file can be moved to from the directory of
  their staging file
- `FileTree.save_succeeds_iff`: the paths that can be written to, and the two messages for
  the others
-/

namespace LinearLight.FileTree

variable {t : FileTree} {p : Path} {d : NodeId}

/-- The paths and names that a write is about are within the limits of the system. -/
structure WithinLimits (t : FileTree) (p : Path) : Prop where
  path : p.bytes.length ≤ pathLimit
  ending : p.ending.length ≤ nameLimit
  staging : (p.stagingPath t.currentPath (t.freeStagingName p)).bytes.length ≤ pathLimit

/-- The system takes the path of a staging file, if it is not too long. -/
theorem WithinLimits.checkPath_stagingPath (h : t.WithinLimits p)
    (hcurrent : t.currentPath.hasZeroByte = false) (hp : p.hasZeroByte = false) :
    checkPath (p.stagingPath t.currentPath (t.freeStagingName p)) = .ok () := by
  obtain ⟨n, hname, -, -⟩ := t.exists_freeStagingName_eq p
  have hstaging := h.staging
  rw [hname] at hstaging ⊢
  have hdirectory := Path.hasZeroByte_join hcurrent (p.hasZeroByte_stagingDirectory hp)
  have hstagingName : Path.hasZeroByte ⟨stagingName n⟩ = false :=
    (Path.hasZeroByte_eq_false_iff _).mpr (zero_notMem_stagingName n)
  exact checkPath_eq_ok_iff.mpr ⟨isEmpty_stagingPath p t.currentPath n,
    Path.hasZeroByte_join hdirectory hstagingName, hstaging⟩

/-- A file that is staged for a path can be moved to it just when the path ends in a name that is no
directory next to the staging file. -/
theorem exists_renameTarget_iff {t : Sound} (hp : p.hasZeroByte = false)
    (hlimits : t.WithinLimits p) (hd : t.resolveDirectory p.stagingDirectory = .ok d) :
    (∃ target, t.renameTarget p = .ok target) ↔
      p.EndsInName ∧ ∀ id, t.entry? d p.ending = some id → t.isDirectory id = false := by
  constructor
  · rintro ⟨⟨d', name⟩, htarget⟩
    obtain ⟨rfl, -⟩ := t.namedEntry?_of_renameTarget hd htarget
    obtain ⟨-, -, hentry⟩ := renameTarget_eq_ok_iff.mp htarget
    obtain ⟨hends, rfl⟩ := endsInName_of_renameTarget htarget
    exact ⟨hends, hentry⟩
  · rintro ⟨hends, hentry⟩
    obtain ⟨hlast, hslash⟩ := p.last_eq_name_iff.mpr ⟨hends, rfl⟩
    obtain ⟨hgetLast, hdot, -⟩ := Last.ofNames_eq_name_iff.mp hlast
    obtain ⟨-, left, hleads⟩ := resolveDirectory_eq_ok_iff.mp hd
    have hleads' := (t.leads_stagingDirectory_iff hgetLast hdot).mp hleads
    have hcheck : checkPath p = .ok () := by
      refine checkPath_eq_ok_iff.mpr ⟨?_, hp, hlimits.path⟩
      by_contra hempty
      exact hends.1 (p.ending_eq_nil_iff.mpr (.inl (by simpa using hempty)))
    have hlocate : t.locate p = .ok ⟨d, .name p.ending, false⟩ :=
      locate_eq_ok_iff.mpr ⟨hcheck, d, left, hleads', by rw [hlast, hslash]⟩
    exact ⟨(d, p.ending), renameTarget_eq_ok_iff.mpr ⟨hlocate, hlimits.ending, hentry⟩⟩

section Granted

variable {script : List Answer} (contents : Bytes)

/-- A write that does not find the directory of its staging file fails to make the file. -/
theorem exists_save_eq_create_error (hgranted : ∀ answer ∈ script, answer.Granted)
    (hnone : ∀ d, t.resolveDirectory p.stagingDirectory ≠ .ok d) :
    ∃ staging cause,
      (t.save p contents script).1 = .error (.create p.stagingDirectory staging cause) := by
  cases hcreate : (AtomicWrite.begin t p contents).create t with
  | error e => exact ⟨_, e, AtomicWrite.run_of_create_error rfl hcreate hgranted⟩
  | ok made => exact absurd (AtomicWrite.of_create_eq_ok hcreate).1 (hnone _)

/-- A write that finds the directory of its staging file ends as the move decides. -/
theorem moveDecides_save {t : Sound} (hgranted : ∀ answer ∈ script, answer.Granted)
    (hcheck : checkPath (p.stagingPath t.currentPath (t.freeStagingName p)) = .ok ())
    (hd : t.resolveDirectory p.stagingDirectory = .ok d) :
    t.MoveDecides p (t.save p contents script).1 := by
  have hunused : t.entry? d (t.freeStagingName p) = none := entry?_freeStagingName hd
  obtain ⟨staging, after, hcreate⟩ := AtomicWrite.exists_create
    (w := AtomicWrite.begin t p contents) hcheck hd hunused
  exact AtomicWrite.run_of_create rfl hcreate hgranted

/-- A write whose calls are granted succeeds if and only if the directory of its staging file is
found and the path ends in a name that stands for nothing there, or for no directory. Otherwise it
says which of the two was not the case. -/
theorem save_succeeds_iff {t : Sound} (hcurrent : t.currentPath.hasZeroByte = false)
    (hp : p.hasZeroByte = false) (hlimits : t.WithinLimits p)
    (hgranted : ∀ answer ∈ script, answer.Granted) :
    ((t.save p contents script).1 = .ok () ↔
      ∃ d, t.resolveDirectory p.stagingDirectory = .ok d ∧ p.EndsInName ∧
        ∀ id, t.entry? d p.ending = some id → t.isDirectory id = false) ∧
    ∀ e, (t.save p contents script).1 = .error e →
      ((∀ d, t.resolveDirectory p.stagingDirectory ≠ .ok d) →
        e.message = "Failed to create temporary file in: " ++ p.stagingDirectory.display) ∧
      ((∃ d, t.resolveDirectory p.stagingDirectory = .ok d) →
        e.message = "Failed to save: " ++ p.display) := by
  cases hd : t.resolveDirectory p.stagingDirectory with
  | error e =>
    have hnone : ∀ d, t.resolveDirectory p.stagingDirectory ≠ .ok d := by simp [hd]
    obtain ⟨staging, cause, hresult⟩ := exists_save_eq_create_error contents hgranted hnone
    rw [hresult]
    refine ⟨by simp, ?_⟩
    rintro _ ⟨⟩
    exact ⟨fun _ => rfl, by simp⟩
  | ok d =>
    have hcheck := hlimits.checkPath_stagingPath hcurrent hp
    have hiff := exists_renameTarget_iff hp hlimits hd
    have hdecides := moveDecides_save contents hgranted hcheck hd
    generalize (t.save p contents script).1 = result at hdecides ⊢
    cases hdecides with
    | moved h => exact ⟨⟨fun _ => ⟨d, rfl, hiff.mp ⟨_, h⟩⟩, fun _ => rfl⟩, by simp⟩
    | refused h cause =>
      have hnot := mt hiff.mpr fun ⟨target, htarget⟩ => h target htarget
      refine ⟨⟨nofun, ?_⟩, ?_⟩
      · rintro ⟨d', hd', hends⟩
        cases hd'
        exact absurd hends hnot
      · rintro _ ⟨⟩
        exact ⟨by simp, fun _ => rfl⟩

end Granted

/-- A dangling link is replaced, by a path through a link to the current directory. -/
theorem save_succeeds_iff_through_link :
    let t := (Sound.bare.after (.makeLink ⟨[0x6C]⟩ ⟨[0x2E]⟩)).after
      (.makeLink ⟨[0x78]⟩ ⟨[0x79]⟩)
    let p : Path := ⟨[0x6C, 0x2F, 0x2F, 0x78]⟩
    let script : List Answer := [.proceed, .accept 1]
    t.currentPath.hasZeroByte = false ∧ p.hasZeroByte = false ∧
      t.WithinLimits p ∧ (∀ answer ∈ script, answer.Granted) ∧
      (t.save p [0x61, 0x62] script).1 = .ok () := by
  intro t p script
  have hcurrent : t.currentPath.hasZeroByte = false := by cbv
  have hlimits : t.WithinLimits p := ⟨by decide, by decide, by cbv⟩
  have hgranted : ∀ answer ∈ script, answer.Granted := by simp [script, Answer.Granted]
  have hd : t.resolveDirectory p.stagingDirectory = .ok 0 := by cbv
  have hentry : ∀ id, t.entry? 0 p.ending = some id → t.isDirectory id = false := by
    intro id hid
    have h : t.entry? 0 p.ending = some 2 := by cbv
    rw [h] at hid
    cases hid
    cbv
  have hends : p.EndsInName := by
    refine ⟨?_, ?_, ?_⟩ <;> decide
  exact ⟨hcurrent, rfl, hlimits, hgranted,
    ((save_succeeds_iff [0x61, 0x62] hcurrent rfl hlimits hgranted).1).mpr ⟨0, hd, hends, hentry⟩⟩

end LinearLight.FileTree
