import Mathlib.Logic.ExistsUnique
import LinearLight.Proofs.Delivery.Both

/-!
# How a delivery of both artifacts ends

It is refused, the header fails, the source fails, or both succeed; each comes with a tree and an
output of its own, and no two can come together. On the way, the source is not begun before the
header is in place.

## Main definitions

- `Ending`, `EndsIn`: the four endings
- `headerMoments`, `sourceMoments`, `moments`: the tree and the output at every moment
- `LacksSource`: a moment at which nothing of the source has been put anywhere

## Main statements

- `getLast?_moments`: the moments end with what the delivery leaves
- `lacksSource_or_header_before`: the header is in place before the source is begun
- `deliverArtifacts_endings`: the four endings, and what holds in all of them
-/

namespace LinearLight

/-- How a delivery of both artifacts ends. -/
inductive Ending where
  | refused
  | headerFailed
  | sourceFailed
  | done
deriving DecidableEq

section

variable (tables : Tables) (t : FileTree) (source header : Destination) (answers : Answers)

/-- The moments of the delivery of the header. -/
def headerMoments : List Moment :=
  deliverMoments t header (Artifact.header.contents tables) answers.header answers

/-- The moments of the delivery of the source; it has none if the header failed. -/
def sourceMoments : List Moment :=
  let first := headerDelivery tables t header answers
  match first.result with
  | .error _ => []
  | .ok () =>
    (deliverMoments first.tree source (Artifact.source.contents tables) answers.source answers).map
      fun m => { m with stdout := first.stdout ++ m.stdout }

/-- The moments of the delivery of both artifacts. -/
def moments : List Moment :=
  match refusal? source header with
  | some _ => [⟨t, []⟩]
  | none => headerMoments tables t header answers ++ sourceMoments tables t source header answers

/-- What each ending means for the result, the tree and the output. -/
def EndsIn (ending : Ending) : Prop :=
  let first := headerDelivery tables t header answers
  let second := sourceDelivery tables t source header answers
  let d := deliverArtifacts tables t source header answers
  match ending with
  | .refused =>
    Refused source header ∧ (∃ e, d.result = .error e) ∧
      moments tables t source header answers = [⟨t, []⟩] ∧ d.tree = t ∧ d.stdout = []
  | .headerFailed =>
    ¬ Refused source header ∧ (∃ e, first.result = .error e ∧ d.result = .error e) ∧
      moments tables t source header answers = headerMoments tables t header answers ∧ d.tree = t
  | .sourceFailed =>
    ¬ Refused source header ∧ first.result = .ok () ∧
      (∃ e, second.result = .error e ∧ d.result = .error e) ∧
      header.Holds t d.tree d.stdout (Artifact.header.contents tables) ∧ d.tree = first.tree
  | .done =>
    ¬ Refused source header ∧ first.result = .ok () ∧ second.result = .ok () ∧ d.result = .ok () ∧
      header.Holds t first.tree first.stdout (Artifact.header.contents tables) ∧
      source.Holds t d.tree second.stdout (Artifact.source.contents tables)

/-- The ending that the results of the two deliveries tell. -/
def ending : Ending :=
  match refusal? source header with
  | some _ => .refused
  | none =>
    match (headerDelivery tables t header answers).result with
    | .error _ => .headerFailed
    | .ok () =>
      match (sourceDelivery tables t source header answers).result with
      | .error _ => .sourceFailed
      | .ok () => .done

/-- A moment at which nothing of the source has been put anywhere: in the tree, nothing has changed
but entries that hold a beginning of the header, and nothing is on standard output if the source is
meant to go there. -/
def LacksSource (m : Moment) : Prop :=
  (t.SameExcept m.tree fun d name =>
    ∃ f, m.tree.fileAt? (d, name) = some f ∧ f.data <+: Artifact.header.contents tables) ∧
  (source = .stdout → m.stdout = [])

end

variable {tables : Tables} {t : FileTree} {source header : Destination} {answers : Answers}

theorem getLast?_headerMoments (tables : Tables) (t : FileTree) (header : Destination)
    (answers : Answers) :
    (headerMoments tables t header answers).getLast? =
      some ⟨(headerDelivery tables t header answers).tree,
        (headerDelivery tables t header answers).stdout⟩ :=
  getLast?_deliverMoments answers.header answers

/-- The moments end with what the delivery leaves. -/
theorem getLast?_moments :
    (moments tables t source header answers).getLast? =
      some ⟨(deliverArtifacts tables t source header answers).tree,
        (deliverArtifacts tables t source header answers).stdout⟩ := by
  unfold moments
  cases hrefusal : refusal? source header with
  | some refusal =>
    rw [deliverArtifacts_of_refused hrefusal]
    rfl
  | none =>
    simp only [List.getLast?_append, sourceMoments]
    cases hfirst : (headerDelivery tables t header answers).result with
    | error e =>
      rw [deliverArtifacts_of_header_error hrefusal hfirst]
      exact getLast?_headerMoments tables t header answers
    | ok _ =>
      obtain ⟨htree, -, hstdout⟩ := deliverArtifacts_of_header_ok hrefusal hfirst
      rw [htree, hstdout, List.getLast?_map, getLast?_deliverMoments]
      rfl

theorem endsIn_refused (h : Refused source header) :
    EndsIn tables t source header answers .refused := by
  obtain ⟨refusal, hrefusal⟩ := Option.isSome_iff_exists.mp (refusal?_isSome_iff.mpr h)
  have hmoments : moments tables t source header answers = [⟨t, []⟩] := by
    simp only [moments, hrefusal]
  refine ⟨h, ⟨refusal, ?_⟩, hmoments, ?_, ?_⟩ <;> rw [deliverArtifacts_of_refused hrefusal]

section

variable {t : FileTree.Sound} (hnot : ¬ Refused source header)

include hnot

theorem endsIn_headerFailed {e : DeliveryError}
    (hfirst : (headerDelivery tables t header answers).result = .error e) :
    EndsIn tables t source header answers .headerFailed := by
  have hrefusal := refusal?_eq_none_iff.mpr hnot
  have hmoments :
      moments tables t source header answers = headerMoments tables t header answers := by
    simp only [moments, hrefusal, sourceMoments, hfirst, List.append_nil]
  refine ⟨hnot, ⟨e, hfirst, ?_⟩, hmoments, ?_⟩
  · rw [deliverArtifacts_of_header_error hrefusal hfirst]
    exact hfirst
  · rw [deliverArtifacts_of_header_error hrefusal hfirst]
    exact (delivered_headerDelivery tables t header answers).error hfirst

theorem endsIn_sourceFailed (hfirst : (headerDelivery tables t header answers).result = .ok ())
    {e : DeliveryError}
    (hsecond : (sourceDelivery tables t source header answers).result = .error e) :
    EndsIn tables t source header answers .sourceFailed := by
  obtain ⟨htree, hresult, hstdout⟩ :=
    deliverArtifacts_of_header_ok (refusal?_eq_none_iff.mpr hnot) hfirst
  have hsame := (delivered_sourceDelivery tables t source header answers).error hsecond
  have hheader := (delivered_headerDelivery tables t header answers).ok hfirst
  refine ⟨hnot, hfirst, ⟨e, hsecond, hresult.trans hsecond⟩, ?_, htree.trans hsame⟩
  rw [htree, hsame, hstdout]
  cases header with
  | file path => exact hheader
  | stdout =>
    -- the source is a file then, and puts nothing on standard output
    have hshare : source.share (Artifact.source.contents tables) = [] := by
      cases source with
      | stdout => exact absurd (.inl ⟨rfl, rfl⟩) hnot
      | file path => rfl
    have hnothing := (delivered_sourceDelivery tables t source .stdout answers).stdout
    rw [hshare, List.prefix_nil] at hnothing
    rw [hnothing, List.append_nil]
    exact hheader

theorem endsIn_done (hfirst : (headerDelivery tables t header answers).result = .ok ())
    (hsecond : (sourceDelivery tables t source header answers).result = .ok ()) :
    EndsIn tables t source header answers .done := by
  obtain ⟨htree, hresult, -⟩ :=
    deliverArtifacts_of_header_ok (refusal?_eq_none_iff.mpr hnot) hfirst
  have hheader := (delivered_headerDelivery tables t header answers).ok hfirst
  refine ⟨hnot, hfirst, hsecond, hresult.trans hsecond, hheader, ?_⟩
  rw [htree]
  exact holds_sourceDelivery hsecond

end

/-- A delivery ends in the way that the results of its two parts tell. -/
theorem endsIn_ending {t : FileTree.Sound} :
    EndsIn tables t source header answers (ending tables t source header answers) := by
  unfold ending
  split
  · next refusal hrefusal =>
    exact endsIn_refused (refusal?_isSome_iff.mp (by rw [hrefusal]; rfl))
  · next hrefusal =>
    have hnot := refusal?_eq_none_iff.mp hrefusal
    split
    · next e hfirst => exact endsIn_headerFailed hnot hfirst
    · next hfirst =>
      split
      · next e hsecond => exact endsIn_sourceFailed hnot hfirst hsecond
      · next hsecond => exact endsIn_done hnot hfirst hsecond

/-- It ends in no other way. -/
theorem EndsIn.eq_ending {other : Ending} (h : EndsIn tables t source header answers other) :
    other = ending tables t source header answers := by
  cases other with
  | refused =>
    obtain ⟨refusal, hrefusal⟩ := Option.isSome_iff_exists.mp (refusal?_isSome_iff.mpr h.1)
    simp [ending, hrefusal]
  | headerFailed =>
    obtain ⟨hnot, ⟨e, hfirst, -⟩, -⟩ := h
    simp [ending, refusal?_eq_none_iff.mpr hnot, hfirst]
  | sourceFailed =>
    obtain ⟨hnot, hfirst, ⟨e, hsecond, -⟩, -⟩ := h
    simp [ending, refusal?_eq_none_iff.mpr hnot, hfirst, hsecond]
  | done =>
    obtain ⟨hnot, hfirst, hsecond, -⟩ := h
    simp [ending, refusal?_eq_none_iff.mpr hnot, hfirst, hsecond]

/-- At every moment, nothing of the source has been put anywhere, or the whole header has been in
place before. -/
theorem lacksSource_or_header_before {t : FileTree.Sound} {i : Nat} {m : Moment}
    (hm : (moments tables t source header answers)[i]? = some m) :
    LacksSource tables t source m ∨
      ∃ j m', j ≤ i ∧ (moments tables t source header answers)[j]? = some m' ∧
        header.Holds t m'.tree m'.stdout (Artifact.header.contents tables) := by
  unfold moments at hm ⊢
  cases hrefusal : refusal? source header with
  | some refusal =>
    simp only [hrefusal] at hm
    obtain rfl : m = ⟨t, []⟩ := List.mem_singleton.mp (List.mem_of_getElem? hm)
    exact .inl ⟨.refl t _, fun _ => rfl⟩
  | none =>
    simp only [hrefusal] at hm ⊢
    by_cases hi : i < (headerMoments tables t header answers).length
    · rw [List.getElem?_append_left hi] at hm
      obtain ⟨hsame, hstdout⟩ := of_mem_deliverMoments (List.mem_of_getElem? hm)
      refine .inl ⟨hsame, fun hsource => ?_⟩
      cases header with
      | file path => exact List.prefix_nil.mp hstdout
      | stdout => exact absurd (.inl ⟨hsource, rfl⟩) (refusal?_eq_none_iff.mp hrefusal)
    · -- the source has moments of its own only after the header, whose last moment is just before
      have hsource := List.mem_of_getElem? (List.getElem?_append_right (Nat.le_of_not_lt hi) ▸ hm)
      have hfirst : (headerDelivery tables t header answers).result = .ok () := by
        cases hresult : (headerDelivery tables t header answers).result with
        | error e => simp [sourceMoments, hresult] at hsource
        | ok _ => rfl
      have hlast := getLast?_headerMoments tables t header answers
      rw [List.getLast?_eq_getElem?] at hlast
      refine .inr ⟨(headerMoments tables t header answers).length - 1,
        ⟨(headerDelivery tables t header answers).tree,
          (headerDelivery tables t header answers).stdout⟩, by omega, ?_,
        (delivered_headerDelivery tables t header answers).ok hfirst⟩
      rw [List.getElem?_append_left (List.getElem?_eq_some_iff.mp hlast).1]
      exact hlast

/-- A delivery of both artifacts ends in exactly one of four ways: it is refused, which happens just
when both go to standard output or both paths are taken for one; the header fails; the source
fails; or both succeed. However it ends, nothing in the tree is changed but the entries that the two
destinations named at the start, and these only for complete artifacts; standard output has got a
beginning of the one artifact meant for it; and at no moment, of which the last one shows what is
left, has anything of the source been put anywhere before the whole header was in place. -/
theorem deliverArtifacts_endings (tables : Tables) (t : FileTree.Sound)
    (source header : Destination) (answers : Answers) :
    let d := deliverArtifacts tables t source header answers
    (∃! ending, EndsIn tables t source header answers ending) ∧
    (EndsIn tables t source header answers .refused ↔
      (source = .stdout ∧ header = .stdout) ∨ source.same header = true) ∧
    t.SameExcept d.tree (fun dir name =>
      Brought t d.tree header (Artifact.header.contents tables) dir name ∨
      Brought t d.tree source (Artifact.source.contents tables) dir name) ∧
    d.stdout <+: stdoutShare tables source header ∧
    (moments tables t source header answers).getLast? = some ⟨d.tree, d.stdout⟩ ∧
    ∀ (i : Nat) m, (moments tables t source header answers)[i]? = some m →
      LacksSource tables t source m ∨
        ∃ (j : Nat) (m' : Moment), j ≤ i ∧ (moments tables t source header answers)[j]? = some m' ∧
          header.Holds t m'.tree m'.stdout (Artifact.header.contents tables) := by
  refine ⟨⟨_, endsIn_ending, fun _ => EndsIn.eq_ending⟩, ⟨fun h => h.1, endsIn_refused⟩,
    sameExcept_deliverArtifacts, stdout_deliverArtifacts_isPrefix, getLast?_moments, ?_⟩
  exact fun _ _ => lacksSource_or_header_before

/-- The header in the place of a file, the source on standard output. -/
theorem deliverArtifacts_endings_of_piped_source :
    let t := FileTree.Sound.bare.after (.putFile ⟨[0x78]⟩ [0x6F] 0o600)
    let source := Destination.stdout
    let header := Destination.file ⟨[0x78]⟩
    let answers : Answers := { stdout := [.accept 1, .fail .nothingAccepted] }
    (∃! ending, EndsIn .zero t source header answers ending) ∧
      ¬ EndsIn .zero t source header answers .refused := by
  intro t source header answers
  obtain ⟨hunique, hrefused, -⟩ := deliverArtifacts_endings .zero t source header answers
  exact ⟨hunique, fun h => by simpa [source, header, Destination.same] using hrefused.mp h⟩

end LinearLight
