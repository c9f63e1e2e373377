import LinearLight.Proofs.AtomicWrite.Success
import LinearLight.Proofs.Delivery.Entries
import LinearLight.Proofs.FileTree.Overlay

/-!
# Delivering again

What is written to two paths goes to two entries, or to one if both paths name it, whatever has been
written to them before. So all that a delivery of both artifacts leaves is determined by the tree
at the start: the header under its entry, and over it the source under its own. A delivery after
another one changes nothing that shows, and neither do other writes to the same paths, before or in
between.

## Main definitions

- `SavedTo`: the trees that successful writes to either of two paths lead to
- `Regenerates`: a delivery on one tree leaves what another tree shows

## Main statements

- `SavedTo.overlaid`: nothing is changed but the two entries
- `overlaid_deliverArtifacts`: what a delivery that succeeds leaves
- `deliverArtifacts_again`: deliveries after one that has succeeded
-/

namespace LinearLight

/-- The trees that successful writes to either of two paths lead to, with any contents, and however
the calls were answered. -/
inductive SavedTo (source header : Path) (t : FileTree) : FileTree → Prop where
  | refl : SavedTo source header t t
  | save {now p} (h : SavedTo source header t now) (hp : p = source ∨ p = header)
      {contents : Bytes} {script : List Answer} (hok : (now.save p contents script).1 = .ok ()) :
      SavedTo source header t (now.save p contents script).2

/-- A delivery on a tree succeeds if no call fails, and each one that succeeds leaves a tree that is
the same as a given one. -/
def Regenerates (tables : Tables) (source header : Path) (final t : FileTree) : Prop :=
  (deliverArtifacts tables t (.file source) (.file header)).result = .ok () ∧
    ∀ answers : Answers,
      (deliverArtifacts tables t (.file source) (.file header) answers).result = .ok () →
        final.Same (deliverArtifacts tables t (.file source) (.file header) answers).tree

variable {tables : Tables} {t now after : FileTree} {source header : Path} {answers : Answers}
  {files : NodeId × Name → Option File}

theorem SavedTo.trans (h : SavedTo source header t now) (h' : SavedTo source header now after) :
    SavedTo source header t after := by
  induction h' with
  | refl => exact h
  | save _ hp hok ih => exact .save ih hp hok

/-! ### A delivery is two writes -/

/-- A delivery to two files that succeeds is a write of the header and then one of the source. -/
theorem saves_of_ok
    (hok : (deliverArtifacts tables t (.file source) (.file header) answers).result = .ok ()) :
    let first := t.save header (Artifact.header.contents tables) answers.header
    let second := first.2.save source (Artifact.source.contents tables) answers.source
    first.1 = .ok () ∧ second.1 = .ok () ∧
      (deliverArtifacts tables t (.file source) (.file header) answers).tree = second.2 := by
  have hrefusal := refusal?_eq_none_of_ok hok
  cases hfirst : (headerDelivery tables t (.file header) answers).result with
  | error e =>
    rw [deliverArtifacts_of_header_error hrefusal hfirst] at hok
    exact nomatch hfirst.symm.trans hok
  | ok _ =>
    obtain ⟨htree, hresult, -⟩ := deliverArtifacts_of_header_ok hrefusal hfirst
    exact ⟨mapError_eq_ok.mp hfirst, mapError_eq_ok.mp (hresult.symm.trans hok), htree⟩

theorem ok_of_saves (hrefusal : refusal? (.file source) (.file header) = none)
    (hfirst : (t.save header (Artifact.header.contents tables) answers.header).1 = .ok ())
    (hsecond : ((t.save header (Artifact.header.contents tables) answers.header).2.save source
      (Artifact.source.contents tables) answers.source).1 = .ok ()) :
    (deliverArtifacts tables t (.file source) (.file header) answers).result = .ok () := by
  have hheader : (headerDelivery tables t (.file header) answers).result = .ok () :=
    mapError_eq_ok.mpr hfirst
  obtain ⟨-, hresult, -⟩ := deliverArtifacts_of_header_ok hrefusal hheader
  rw [hresult]
  exact mapError_eq_ok.mpr hsecond

theorem savedTo_deliverArtifacts
    (hok : (deliverArtifacts tables t (.file source) (.file header) answers).result = .ok ()) :
    SavedTo source header t
      (deliverArtifacts tables t (.file source) (.file header) answers).tree := by
  obtain ⟨hfirst, hsecond, htree⟩ := saves_of_ok hok
  rw [htree]
  exact .save (.save .refl (.inr rfl) hfirst) (.inl rfl) hsecond

/-! ### What writes to the two paths leave -/

/-- A file as every write leaves it. -/
def written (contents : Bytes) : File := ⟨contents, writtenMode, true⟩

/-- A write to a path that succeeds lays its file over the entry that the path named at first. -/
theorem FileTree.Overlaid.save {t : FileTree.Sound} (h : t.Overlaid now files) {p : Path}
    {d : NodeId} {name : Name} (hp : t.Saveable p d name) {contents : Bytes}
    {script : List Answer} (hok : (now.save p contents script).1 = .ok ()) :
    t.Overlaid (now.save p contents script).2
      (Function.update files (d, name) (some (written contents))) := by
  obtain ⟨d', name', hsaveable, htree⟩ := FileTree.saveable_of_save (t := h.tree) hok
  have htarget := (hsaveable.of_sameExcept h.same).target
  rw [hp.target] at htarget
  cases htarget
  rw [htree]
  exact h.place hsaveable.isDirectory (fun _ => hsaveable.not_isDirectory) _

/-- A path that can be written to again and again: a write to it can succeed, it passes no link, and
there is a name for the staging file besides its own and some others. -/
structure FileTree.Rewritable (t : FileTree) (p : Path) (others : List Name) (d : NodeId)
    (name : Name) : Prop where
  saveable : t.Saveable p d name
  followsNoLink : t.FollowsNoLink p
  room : t.HasStagingRoom p others

theorem FileTree.Rewritable.save {t : FileTree.Sound} {p : Path} {others : List Name} {d : NodeId}
    {name : Name} (hp : t.Rewritable p others d name) (h : t.Overlaid now files)
    (hfiles : ∀ entry, files entry ≠ none → entry.2 ∈ p.names ∨ entry.2 ∈ others)
    (contents : Bytes) : (now.save p contents).1 = .ok () := by
  have hsaveable : h.tree.Saveable p d name := hp.saveable.sameExcept hp.followsNoLink h.same
  have hroom : now.HasStagingRoom p others := by
    refine hp.room.congr hp.saveable.directory hsaveable.directory fun other hown hothers => ?_
    have hnone : files (d, other) = none := by
      by_contra hsome
      exact (hfiles _ hsome).elim hown hothers
    exact h.entry?_of_none hnone
  exact hsaveable.save hroom contents

section Entries

variable {d d' : NodeId} {name name' : Name}

/-- Writes to the two paths have changed nothing but the entries that these named at first. -/
theorem SavedTo.overlaid {t : FileTree.Sound} (h : SavedTo source header t now)
    (hsource : t.Saveable source d name) (hheader : t.Saveable header d' name') :
    ∃ files, t.Overlaid now files ∧
      ∀ entry, entry ≠ (d, name) → entry ≠ (d', name') → files entry = none := by
  induction h with
  | refl => exact ⟨_, .refl, fun _ _ _ => rfl⟩
  | save _ hp hok ih =>
    obtain ⟨files, hover, hnone⟩ := ih
    rcases hp with rfl | rfl
    · refine ⟨_, hover.save hsource hok, fun entry hne hne' => ?_⟩
      rw [Function.update_of_ne hne, hnone entry hne hne']
    · refine ⟨_, hover.save hheader hok, fun entry hne hne' => ?_⟩
      rw [Function.update_of_ne hne', hnone entry hne hne']

/-- A delivery that succeeds lays the header over its entry, and then the source over its own. -/
theorem overlaid_deliverArtifacts {t : FileTree.Sound} (h : t.Overlaid now files)
    (hsource : t.Saveable source d name) (hheader : t.Saveable header d' name')
    (hok : (deliverArtifacts tables now (.file source) (.file header) answers).result = .ok ()) :
    t.Overlaid (deliverArtifacts tables now (.file source) (.file header) answers).tree
      (Function.update
        (Function.update files (d', name') (some (written (Artifact.header.contents tables))))
        (d, name) (some (written (Artifact.source.contents tables)))) := by
  obtain ⟨hfirst, hsecond, htree⟩ := saves_of_ok hok
  rw [htree]
  exact (h.save hheader hfirst).save hsource hsecond

/-- Whatever has been laid over the two entries is gone when both are laid over again. -/
theorem update_update_eq (hnone : ∀ entry, entry ≠ (d, name) → entry ≠ (d', name') →
    files entry = none) (f g : File) :
    Function.update (Function.update files (d', name') (some f)) (d, name) (some g) =
      Function.update (Function.update (fun _ => none) (d', name') (some f)) (d, name)
        (some g) := by
  funext entry
  by_cases heq : entry = (d, name)
  · rw [heq, Function.update_self, Function.update_self]
  · rw [Function.update_of_ne heq, Function.update_of_ne heq]
    by_cases heq' : entry = (d', name')
    · rw [heq', Function.update_self, Function.update_self]
    · rw [Function.update_of_ne heq', Function.update_of_ne heq', hnone entry heq heq']

/-- A delivery succeeds if no call fails, whatever has been written to the two paths. -/
theorem ok_deliverArtifacts {t : FileTree.Sound} (h : t.Overlaid now files)
    (hrefusal : refusal? (.file source) (.file header) = none)
    (hsource : t.Rewritable source header.names d name)
    (hheader : t.Rewritable header source.names d' name')
    (hnone : ∀ entry, entry ≠ (d, name) → entry ≠ (d', name') → files entry = none) :
    (deliverArtifacts tables now (.file source) (.file header)).result = .ok () := by
  have hname : name ∈ source.names :=
    List.mem_of_getLast? (FileTree.getLast?_of_renameTarget hsource.saveable.target).1
  have hname' : name' ∈ header.names :=
    List.mem_of_getLast? (FileTree.getLast?_of_renameTarget hheader.saveable.target).1
  -- both entries carry the last names of the paths, so no staging name is taken by them
  have hfiles : ∀ entry, files entry ≠ none → entry.2 ∈ source.names ∨ entry.2 ∈ header.names := by
    intro entry hsome
    by_cases heq : entry = (d, name)
    · exact .inl (heq ▸ hname)
    · by_cases heq' : entry = (d', name')
      · exact .inr (heq' ▸ hname')
      · exact absurd (hnone entry heq heq') hsome
  have hfirst := hheader.save h (fun entry hsome => (hfiles entry hsome).symm)
    (Artifact.header.contents tables)
  have hover := h.save hheader.saveable hfirst
  refine ok_of_saves hrefusal hfirst (hsource.save hover (fun entry hsome => ?_) _)
  by_cases heq : entry = (d', name')
  · exact .inr (heq ▸ hname')
  · rw [Function.update_of_ne heq] at hsome
    exact hfiles entry hsome

end Entries

/-- When both artifacts have been delivered to files by paths whose directory parts pass no link,
they can be delivered to them again, and each time the tree is left as it was left the first time.
It does not matter what else was written to the two paths, before the first delivery or between the
two. The names for staging files, of which one of the usual length has to be free, are those that
the system would find. -/
theorem deliverArtifacts_again {t : FileTree.Sound} (hsource : t.FollowsNoLink source)
    (hheader : t.FollowsNoLink header) (hsourceRoom : t.HasStagingRoom source header.names)
    (hheaderRoom : t.HasStagingRoom header source.names)
    (hok : (deliverArtifacts tables t (.file source) (.file header) answers).result = .ok ()) :
    let final := (deliverArtifacts tables t (.file source) (.file header) answers).tree
    ∀ before, SavedTo source header t before →
      Regenerates tables source header final before ∧
      ∀ first : Answers,
        let d := deliverArtifacts tables before (.file source) (.file header) first
        d.result = .ok () → ∀ between, SavedTo source header d.tree between →
          Regenerates tables source header final between := by
  intro final
  obtain ⟨hfirst, hsecond, -⟩ := saves_of_ok hok
  obtain ⟨d', name', hheaderSaveable, -⟩ := FileTree.saveable_of_save hfirst
  have hover := FileTree.Overlaid.refl.save hheaderSaveable hfirst
  obtain ⟨d, name, hlater, -⟩ := FileTree.saveable_of_save (t := hover.tree) hsecond
  have hsourceSaveable := hlater.of_sameExcept hover.same
  have hfinal : t.Overlaid final _ :=
    overlaid_deliverArtifacts .refl hsourceSaveable hheaderSaveable hok
  -- what a delivery leaves depends on nothing but the tree at the start
  have hregenerates : ∀ now, SavedTo source header t now →
      Regenerates tables source header final now := by
    intro now hnow
    obtain ⟨files, hover, hnone⟩ := hnow.overlaid hsourceSaveable hheaderSaveable
    refine ⟨ok_deliverArtifacts hover (refusal?_eq_none_of_ok hok)
      ⟨hsourceSaveable, hsource, hsourceRoom⟩ ⟨hheaderSaveable, hheader, hheaderRoom⟩ hnone,
      fun again hagain => ?_⟩
    have hover' := overlaid_deliverArtifacts hover hsourceSaveable hheaderSaveable hagain
    rw [update_update_eq hnone] at hover'
    exact hfinal.same_of_overlaid hover'
  intro before hbefore
  refine ⟨hregenerates before hbefore, ?_⟩
  intro first d hfirst between hbetween
  have hafter := hbefore.trans (savedTo_deliverArtifacts hfirst)
  exact hregenerates between (hafter.trans hbetween)

/-- Through a dot, both paths name one entry, and something else has been written there before. -/
theorem deliverArtifacts_again_through_dot :
    let t := FileTree.Sound.bare
    let source : Path := ⟨[0x2E, 0x2F, 0x78]⟩
    let header : Path := ⟨[0x78]⟩
    let before := (t.save header [0x61]).2
    let d := deliverArtifacts .zero t (.file source) (.file header)
    t.FollowsNoLink source ∧ t.FollowsNoLink header ∧
      t.HasStagingRoom source header.names ∧ t.HasStagingRoom header source.names ∧
      d.result = .ok () ∧ SavedTo source header t before ∧
      Regenerates .zero source header d.tree before ∧
      Regenerates .zero source header d.tree d.tree := by
  intro t source header before d
  have hok : d.result = .ok () := deliverArtifacts_through_dot .zero
  have hsource : t.FollowsNoLink source := by
    intro directory left hwalk
    have hleads : t.Leads linkLimit 0 [Path.dot] (0, linkLimit) := .dot rfl .done
    exact congrArg Prod.snd ((FileTree.Leads.of_walk hwalk).unique hleads)
  have hheader : t.FollowsNoLink header := by
    intro directory left hwalk
    have hleads : t.Leads linkLimit 0 [] (0, linkLimit) := .done
    exact congrArg Prod.snd ((FileTree.Leads.of_walk hwalk).unique hleads)
  have hname : stagingName 0 = [0x2E, 0x74, 0x6D, 0x70, 0x30, 0x30, 0x30, 0x30, 0x30, 0x30] := by
    cbv
  have hsourceRoom : t.HasStagingRoom source header.names := by
    refine ⟨0, by decide, ?_, ?_⟩
    · have hinUse : t.namesInUse source = [[0x2E], [0x78]] := by cbv
      rw [hinUse, hname]
      decide
    · rw [hname]
      decide
  have hheaderRoom : t.HasStagingRoom header source.names := by
    refine ⟨0, by decide, ?_, ?_⟩
    · have hinUse : t.namesInUse header = [[0x78]] := by cbv
      rw [hinUse, hname]
      decide
    · rw [hname]
      decide
  have hbefore : SavedTo source header t before :=
    .save .refl (.inr rfl) (congrArg Prod.fst (save_to_bare 0x61 []))
  have hagain := deliverArtifacts_again hsource hheader hsourceRoom hheaderRoom hok
  exact ⟨hsource, hheader, hsourceRoom, hheaderRoom, hok, hbefore,
    (hagain before hbefore).1, (hagain t .refl).2 {} hok d.tree .refl⟩

end LinearLight
