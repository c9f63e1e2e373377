import LinearLight.Proofs.AtomicWrite.Criterion
import LinearLight.Proofs.Delivery.Both

/-!
# Outputs that are refused would overwrite each other

Two outputs are refused if their destinations are equal, component by component. Nothing is looked
up for that, and the two may be spelled in ways that the system treats differently. Where both
spellings can be written to, though, they name one entry, so nothing is refused that could have been
done.

## Main definitions

- `Destination.components?`: what counts of a destination when it is compared
- `FileTree.OneOutput`: what is written to two paths on a tree goes to one entry

## Main statements

- `Destination.same_equivalence`
- `FileTree.Sound.namedEntry?_congr`: equal paths name one entry
- `FileTree.Sound.oneOutput`: equal paths are one output
- `no_needless_refusal`: the outputs that are refused for being the same
-/

namespace LinearLight

/-! ### Equal destinations -/

namespace Destination

/-- What counts of a destination when it is compared; nothing of standard output. -/
def components? : Destination → Option Path.Components
  | stdout => none
  | file path => some path.components

theorem same_iff {a b : Destination} : a.same b = true ↔ a.components? = b.components? := by
  cases a <;> cases b <;> simp [same, components?]

theorem same_equivalence : Equivalence fun a b : Destination => a.same b = true where
  refl _ := same_iff.mpr rfl
  symm h := same_iff.mpr (same_iff.mp h).symm
  trans h h' := same_iff.mpr ((same_iff.mp h).trans (same_iff.mp h'))

theorem stdout_same_iff {b : Destination} : stdout.same b = true ↔ b = stdout := by
  cases b <;> simp [same]

end Destination

/-! ### Equal paths -/

namespace FileTree

variable {t : FileTree} {p q : Path}

/-- Paths with the same components have their staging files in the same directory. -/
theorem Leads.stagingDirectory_congr {t : Sound} (hcomponents : p.components = q.components)
    (hnames : p.components.names ≠ []) {r : NodeId × Nat}
    (h : t.Leads linkLimit (t.start t.current p.stagingDirectory) p.stagingDirectory.names r) :
    t.Leads linkLimit (t.start t.current q.stagingDirectory) q.stagingDirectory.names r := by
  have habsolute : p.isAbsolute = q.isAbsolute := by
    have hhead : p.head = q.head := congrArg Path.Components.head hcomponents
    rw [Bool.eq_iff_iff, ← p.head_eq_root_iff, ← q.head_eq_root_iff, hhead]
  have hstart : t.start t.current p.stagingDirectory = t.start t.current q.stagingDirectory := by
    rw [start_stagingDirectory hnames, start_stagingDirectory (hcomponents ▸ hnames), start, start,
      habsolute]
  have hd := t.isDirectory_start_current p.stagingDirectory
  rw [← hstart]
  refine h.congr_dots hd ?_
  rw [p.filter_names_stagingDirectory, q.filter_names_stagingDirectory, hcomponents]

/-- Paths with the same components name the same entry, if they name one at all. -/
theorem Sound.namedEntry?_congr (t : Sound) (hcomponents : p.components = q.components)
    {entry other : NodeId × Name} (hp : t.namedEntry? p = some entry)
    (hq : t.namedEntry? q = some other) : entry = other := by
  obtain ⟨d, name⟩ := entry
  obtain ⟨d', name'⟩ := other
  obtain ⟨hd, hlast⟩ := namedEntry?_eq_some_iff.mp hp
  obtain ⟨hd', hlast'⟩ := namedEntry?_eq_some_iff.mp hq
  obtain ⟨-, left, hleads⟩ := resolveDirectory_eq_ok_iff.mp hd
  obtain ⟨-, left', hleads'⟩ := resolveDirectory_eq_ok_iff.mp hd'
  have hnames : p.components.names ≠ [] := by
    intro hempty
    simp [hempty] at hlast
  have hsame := (hleads.stagingDirectory_congr hcomponents hnames).unique hleads'
  obtain rfl : d = d' := congrArg Prod.fst hsame
  rw [hcomponents, hlast'] at hlast
  rw [Option.some.inj hlast]

/-- On a tree, what is written to two paths goes to one entry. Written each on its own, it leaves
the same tree; written one after the other, only the second is left. -/
structure OneOutput (t : FileTree) (p q : Path) : Prop where
  alike : ∀ contents script script', (t.save p contents script).1 = .ok () →
    (t.save q contents script').1 = .ok () →
      ∃ d name, t.namedEntry? p = some (d, name) ∧ t.namedEntry? q = some (d, name) ∧
        t.Replaced (t.save p contents script).2 d name ⟨contents, writtenMode, true⟩ ∧
        (t.save q contents script').2 = (t.save p contents script).2
  overwritten : ∀ first second script script', (t.save q first script).1 = .ok () →
    ((t.save q first script).2.save p second script').1 = .ok () →
      ∃ d name, t.namedEntry? p = some (d, name) ∧ t.namedEntry? q = some (d, name) ∧
        t.Replaced ((t.save q first script).2.save p second script').2 d name
          ⟨second, writtenMode, true⟩

theorem Sound.oneOutput (t : Sound) (hcomponents : p.components = q.components) :
    t.OneOutput p q where
  alike contents script script' hp hq := by
    obtain ⟨d, name, hentry, htree, hreplaced⟩ := AtomicWrite.replaced_of_run_ok rfl hp
    obtain ⟨d', name', hentry', htree', -⟩ := AtomicWrite.replaced_of_run_ok rfl hq
    cases t.namedEntry?_congr hcomponents hentry hentry'
    exact ⟨d, name, hentry, hentry', hreplaced, htree'.trans htree.symm⟩
  overwritten first second script script' hq hp := by
    obtain ⟨d, name, hentry, htree, hreplaced⟩ := AtomicWrite.replaced_of_run_ok rfl hq
    obtain ⟨d', name', hentry', -, hreplaced'⟩ :=
      AtomicWrite.replaced_of_run_ok (t := t.saved q first script) rfl hp
    -- the first write has made no path name another entry
    have hbefore := hreplaced.others.namedEntry? hentry'
    cases t.namedEntry?_congr hcomponents hbefore hentry
    exact ⟨d, name, hbefore, hentry, hreplaced.trans hreplaced'⟩

end FileTree

/-! ### Refusals -/

section Refusals

variable {tables : Tables} {t : FileTree} {source header output : Destination} {answers : Answers}

theorem refusal?_eq_sameOutput_iff :
    refusal? source header = some (.sameOutput output) ↔
      ¬ (source = .stdout ∧ header = .stdout) ∧ source.same header = true ∧ output = source := by
  unfold refusal?
  by_cases hstdout : source = .stdout ∧ header = .stdout
  · simp [hstdout]
  · by_cases hsame : source.same header = true <;> simp [hstdout, hsame, eq_comm]

/-- No failure to write is a refusal. -/
theorem result_deliver_ne_sameOutput {destination : Destination} {contents : Bytes}
    {files : List Answer} :
    (deliver t destination contents files answers).result ≠ .error (.sameOutput output) := by
  intro h
  cases destination with
  | stdout =>
    obtain ⟨cause, -, hcause⟩ := mapError_eq_error.mp h
    split at hcause <;> cases hcause
  | file path =>
    obtain ⟨cause, -, hcause⟩ := mapError_eq_error.mp h
    cases hcause

theorem refusal?_of_sameOutput
    (h : (deliverArtifacts tables t source header answers).result = .error (.sameOutput output)) :
    refusal? source header = some (.sameOutput output) := by
  cases hrefusal : refusal? source header with
  | some refusal =>
    rw [deliverArtifacts_of_refused hrefusal] at h
    rw [Except.error.inj h]
  | none =>
    -- what has not been refused can only fail to be written
    cases hfirst : (headerDelivery tables t header answers).result with
    | error e =>
      rw [deliverArtifacts_of_header_error hrefusal hfirst] at h
      exact absurd h result_deliver_ne_sameOutput
    | ok _ =>
      obtain ⟨-, hresult, -⟩ := deliverArtifacts_of_header_ok hrefusal hfirst
      exact absurd (hresult.symm.trans h) result_deliver_ne_sameOutput

end Refusals

/-! ### Arguments -/

section Arguments

open Destination

/-- Equality of destinations is an equivalence of arguments, in which standard output is alone.
Paths that are equal in it are one output, and only such outputs are refused for having to
differ. -/
theorem no_needless_refusal (t : FileTree.Sound) :
    (Equivalence fun a b : Bytes => (ofArgument a).same (ofArgument b) = true) ∧
    (∀ a b, (ofArgument a).same (ofArgument b) = true →
      (ofArgument a = .stdout ↔ ofArgument b = .stdout)) ∧
    (∀ a b p q, ofArgument a = .file p → ofArgument b = .file q →
      (ofArgument a).same (ofArgument b) = true → t.OneOutput p q) ∧
    ∀ tables a b answers output,
      (deliverArtifacts tables t (ofArgument a) (ofArgument b) answers).result =
          .error (.sameOutput output) →
        ∃ p q, ofArgument a = .file p ∧ ofArgument b = .file q ∧ t.OneOutput p q := by
  have hone : ∀ {p q}, (Destination.file p).same (.file q) = true → t.OneOutput p q := by
    intro p q hsame
    exact t.oneOutput (Option.some.inj (same_iff.mp hsame))
  refine ⟨same_equivalence.comap ofArgument, ?_, ?_, ?_⟩
  · intro a b hsame
    constructor
    · intro ha
      rwa [ha, stdout_same_iff] at hsame
    · intro hb
      have hsame' := same_equivalence.symm hsame
      rwa [hb, stdout_same_iff] at hsame'
  · intro a b p q ha hb hsame
    rw [ha, hb] at hsame
    exact hone hsame
  · intro tables a b answers output hresult
    obtain ⟨hnot, hsame, -⟩ := refusal?_eq_sameOutput_iff.mp (refusal?_of_sameOutput hresult)
    cases ha : ofArgument a with
    | stdout =>
      rw [ha, stdout_same_iff] at hsame
      exact absurd ⟨ha, hsame⟩ hnot
    | file p =>
      cases hb : ofArgument b with
      | stdout => simp [ha, hb, same] at hsame
      | file q => exact ⟨p, q, rfl, rfl, hone (by rwa [ha, hb] at hsame)⟩

/-- Two spellings of a new file behind a link to the current directory. -/
theorem no_needless_refusal_through_link :
    let t := FileTree.Sound.bare.after (.makeLink ⟨[0x6C]⟩ ⟨[0x2F]⟩)
    let p : Path := ⟨[0x6C, 0x2F, 0x2E, 0x2F, 0x78]⟩
    let q : Path := ⟨[0x6C, 0x2F, 0x2F, 0x78]⟩
    (Destination.ofArgument p.bytes).same (.ofArgument q.bytes) = true ∧
      (t.save p [0x61]).1 = .ok () ∧ (t.save q [0x61]).1 = .ok () ∧
      ∃ d name, t.namedEntry? p = some (d, name) ∧ t.namedEntry? q = some (d, name) ∧
        t.Replaced (t.save p [0x61]).2 d name ⟨[0x61], writtenMode, true⟩ ∧
        (t.save q [0x61]).2 = (t.save p [0x61]).2 := by
  intro t p q
  have hsaved {p : Path}
      (hcheck : FileTree.checkPath (p.stagingPath t.currentPath (t.freeStagingName p)) = .ok ())
      (hd : t.resolveDirectory p.stagingDirectory = .ok 0)
      (htarget : t.renameTarget p = .ok (0, [0x78])) : (t.save p [0x61]).1 = .ok () :=
    (FileTree.moveDecides_save _ (by simp) hcheck hd).eq_ok htarget
  have hp : (t.save p [0x61]).1 = .ok () := hsaved (by cbv) (by cbv) (by cbv)
  have hq : (t.save q [0x61]).1 = .ok () := hsaved (by cbv) (by cbv) (by cbv)
  have hone := (no_needless_refusal t).2.2.1 p.bytes q.bytes p q (by decide) (by decide)
    (by decide)
  exact ⟨by decide, hp, hq, hone.alike [0x61] [] [] hp hq⟩

end Arguments

end LinearLight
