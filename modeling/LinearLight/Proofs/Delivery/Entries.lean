import Mathlib
import LinearLight.Proofs.Code.Artifact
import LinearLight.Proofs.Delivery.Both
import LinearLight.Proofs.FileTree.Arrangement

/-!
# Which artifact an entry names in the end

Two paths are taken for one file when their components agree. Paths with other components may still
name the same entry: by a leading dot, by two dots, by the current directory written out, or through
links. The source then replaces the header, and the delivery succeeds all the same. Both artifacts
are there in the end just when the two paths named different entries.

## Main statements

- `header_complete_iff`: the header is complete in the end just when the entries differ
- `deliverArtifacts_through_dot`: two paths that are told apart and name one entry
-/

namespace LinearLight

variable {tables : Tables} {t : FileTree} {answers : Answers}

/-- A delivery of both artifacts to files that succeeds leaves the complete source under the entry
that its path named at the start. It leaves the complete header under the entry that its path named
just when the two entries differ. -/
theorem header_complete_iff {t : FileTree.Sound} {sourcePath headerPath : Path}
    (hok : (deliverArtifacts tables t (.file sourcePath) (.file headerPath) answers).result =
      .ok ()) :
    let after := (deliverArtifacts tables t (.file sourcePath) (.file headerPath) answers).tree
    ∃ sourceEntry headerEntry, t.namedEntry? sourcePath = some sourceEntry ∧
      t.namedEntry? headerPath = some headerEntry ∧
      after.fileAt? sourceEntry = some ⟨Artifact.source.contents tables, writtenMode, true⟩ ∧
      (after.fileAt? headerEntry = some ⟨Artifact.header.contents tables, writtenMode, true⟩ ↔
        sourceEntry ≠ headerEntry) := by
  intro after
  have hrefusal : refusal? (.file sourcePath) (.file headerPath) = none := by
    cases hrefusal : refusal? (.file sourcePath) (.file headerPath) with
    | none => rfl
    | some refusal =>
      rw [deliverArtifacts_of_refused hrefusal] at hok
      cases hok
  have hheader : (headerDelivery tables t (.file headerPath) answers).result = .ok () := by
    cases hresult : (headerDelivery tables t (.file headerPath) answers).result with
    | ok _ => rfl
    | error e =>
      rw [deliverArtifacts_of_header_error hrefusal hresult] at hok
      exact absurd (hresult.symm.trans hok) (by simp)
  obtain ⟨htree, hresult, -⟩ := deliverArtifacts_of_header_ok hrefusal hheader
  have hfirst := delivered_headerDelivery tables t (.file headerPath) answers
  have hsecond :=
    delivered_sourceDelivery tables t (.file sourcePath) (.file headerPath) answers
  obtain ⟨headerEntry, hheaderEntry, hheaderFile⟩ := hfirst.ok hheader
  obtain ⟨sourceEntry, hsourceEntry, hsourceFile⟩ :=
    holds_sourceDelivery (hresult.symm.trans hok)
  rw [← htree] at hsourceFile
  refine ⟨sourceEntry, headerEntry, hsourceEntry, hheaderEntry, hsourceFile, ?_, ?_⟩
  · rintro hfile rfl
    rw [hsourceFile] at hfile
    simp only [Option.some.injEq, File.mk.injEq, and_self, and_true] at hfile
    exact Code.bytesOf_header_ne_source tables hfile.symm
  · -- the source was not delivered to the entry of the header, so that is as the header left it
    intro hne
    have hkept : ¬ (Destination.target? (headerDelivery tables t (.file headerPath) answers).tree
        (.file sourcePath) = some (headerEntry.1, headerEntry.2) ∧
        (sourceDelivery tables t (.file sourcePath) (.file headerPath) answers).tree.fileAt?
          (headerEntry.1, headerEntry.2) =
            some ⟨Artifact.source.contents tables, writtenMode, true⟩) := by
      rintro ⟨hentry, -⟩
      have hsame := hfirst.same.namedEntry? hentry
      rw [hsourceEntry] at hsame
      exact hne (Option.some.inj hsame)
    have hfile := hsecond.same.fileAt? hkept hheaderFile
    rwa [← htree] at hfile

/-! ### One file under two spellings -/

/-- An artifact is not empty. -/
theorem Artifact.exists_contents_eq_cons (tables : Tables) (a : Artifact) :
    ∃ first rest, a.contents tables = first :: rest := by
  have hne : a.contents tables ≠ [] := by
    intro h
    have htake : (a.contents tables).take 2 = [] := by rw [h]; rfl
    cases a with
    | header => exact absurd (Code.take_bytesOf_header.symm.trans htake) (by simp)
    | source => exact absurd ((Code.take_bytesOf_source tables).symm.trans htake) (by simp)
  exact List.exists_cons_of_ne_nil hne

theorem save_to_bare (first : UInt8) (rest : Bytes) :
    FileTree.bare.save ⟨[0x78]⟩ (first :: rest) =
      (.ok (), FileTree.bare.place 0 [0x78] (.file ⟨first :: rest, writtenMode, true⟩)) := by
  cbv

theorem save_through_dot (f : File) (first : UInt8) (rest : Bytes) :
    ((FileTree.bare.place 0 [0x78] (.file f)).save ⟨[0x2E, 0x2F, 0x78]⟩ (first :: rest)).1 =
      .ok () := by
  cbv

/-- The source goes to a file in the current directory, by way of a dot, and the header to the same
file without it. Nothing is refused and nothing fails. -/
theorem deliverArtifacts_through_dot (tables : Tables) :
    (deliverArtifacts tables .bare (.file ⟨[0x2E, 0x2F, 0x78]⟩) (.file ⟨[0x78]⟩)).result =
      .ok () := by
  obtain ⟨first, rest, hheader⟩ := Artifact.header.exists_contents_eq_cons tables
  obtain ⟨first', rest', hsource⟩ := Artifact.source.exists_contents_eq_cons tables
  have hrefusal : refusal? (.file ⟨[0x2E, 0x2F, 0x78]⟩) (.file ⟨[0x78]⟩) = none := by decide
  have hfirst : headerDelivery tables .bare (.file ⟨[0x78]⟩) {} =
      { headerDelivery tables .bare (.file ⟨[0x78]⟩) {} with
        tree := FileTree.bare.place 0 [0x78] (.file ⟨first :: rest, writtenMode, true⟩)
        result := .ok () } := by
    simp only [headerDelivery, Artifact.deliver, deliver, hheader, save_to_bare]
    rfl
  have hok : (headerDelivery tables .bare (.file ⟨[0x78]⟩) {}).result = .ok () := by rw [hfirst]
  obtain ⟨-, hresult, -⟩ := deliverArtifacts_of_header_ok hrefusal hok
  rw [hresult, sourceDelivery, hfirst]
  simp only [Artifact.deliver, deliver, hsource, mapError_eq_ok]
  exact save_through_dot _ _ _

/-- Through the dot, both paths name one entry, and the header is gone. -/
theorem header_complete_iff_through_dot :
    let t := FileTree.Sound.bare
    let d := deliverArtifacts .zero t (.file ⟨[0x2E, 0x2F, 0x78]⟩) (.file ⟨[0x78]⟩)
    d.result = .ok () ∧
      ∃ sourceEntry headerEntry, t.namedEntry? ⟨[0x2E, 0x2F, 0x78]⟩ = some sourceEntry ∧
        t.namedEntry? ⟨[0x78]⟩ = some headerEntry ∧
        d.tree.fileAt? sourceEntry =
          some ⟨Artifact.source.contents .zero, writtenMode, true⟩ ∧
        (d.tree.fileAt? headerEntry =
            some ⟨Artifact.header.contents .zero, writtenMode, true⟩ ↔
          sourceEntry ≠ headerEntry) := by
  intro t d
  have hok : d.result = .ok () := deliverArtifacts_through_dot .zero
  exact ⟨hok, header_complete_iff hok⟩

/-- Two files for two artifacts are not what every delivery that succeeds leaves behind. -/
theorem not_two_files :
    ¬ ∀ (tables : Tables) (t : FileTree.Sound) (sourcePath headerPath : Path) (answers : Answers),
      (deliverArtifacts tables t (.file sourcePath) (.file headerPath) answers).result = .ok () →
      ∃ sourceEntry headerEntry, t.namedEntry? sourcePath = some sourceEntry ∧
        t.namedEntry? headerPath = some headerEntry ∧
        (deliverArtifacts tables t (.file sourcePath) (.file headerPath) answers).tree.fileAt?
          sourceEntry = some ⟨Artifact.source.contents tables, writtenMode, true⟩ ∧
        (deliverArtifacts tables t (.file sourcePath) (.file headerPath) answers).tree.fileAt?
          headerEntry = some ⟨Artifact.header.contents tables, writtenMode, true⟩ := by
  intro hall
  have hsource : FileTree.bare.namedEntry? ⟨[0x2E, 0x2F, 0x78]⟩ = some (0, [0x78]) := by cbv
  have hheader : FileTree.bare.namedEntry? ⟨[0x78]⟩ = some (0, [0x78]) := by cbv
  obtain ⟨sourceEntry, headerEntry, hsourceEntry, hheaderEntry, hsourceFile, hheaderFile⟩ :=
    hall .zero .bare ⟨[0x2E, 0x2F, 0x78]⟩ ⟨[0x78]⟩ {} (deliverArtifacts_through_dot .zero)
  obtain rfl : (0, [0x78]) = sourceEntry := Option.some.inj (hsource.symm.trans hsourceEntry)
  obtain rfl : (0, [0x78]) = headerEntry := Option.some.inj (hheader.symm.trans hheaderEntry)
  rw [hsourceFile] at hheaderFile
  simp only [Option.some.injEq, File.mk.injEq, and_self, and_true] at hheaderFile
  exact Code.bytesOf_header_ne_source .zero hheaderFile.symm

end LinearLight
