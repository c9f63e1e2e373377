import LinearLight.Proofs.Delivery.Single

/-!
# Both artifacts at their destinations

The header is delivered to the tree at the start, the source to the tree that this leaves. Paths
may lead to fewer places then than at the start, but to no others, so both deliveries can be judged
by what the destinations named at the start.

## Main definitions

- `headerDelivery`, `sourceDelivery`: the two deliveries
- `Refused`: destinations that are refused
- `Brought`: an entry of a destination with complete contents
- `stdoutShare`: what is meant for standard output

## Main statements

- `deliverArtifacts_of_refused`, `deliverArtifacts_of_header_error`, `deliverArtifacts_of_header_ok`
- `sameExcept_deliverArtifacts`, `stdout_deliverArtifacts_isPrefix`
- `stdout_deliverArtifacts_of_ok`: standard output after both deliveries
- `holds_sourceDelivery`: a source delivered after a header is where its path led at the start
-/

namespace LinearLight

variable {tables : Tables} {t : FileTree} {source header : Destination} {answers : Answers}

/-- The delivery of an artifact does what every delivery does. -/
theorem Artifact.delivered (a : Artifact) (t : FileTree.Sound) (destination : Destination)
    (files : List Answer) : Delivered t destination (a.contents tables)
      (a.deliver tables t destination files answers) :=
  have h := delivered_deliver t files answers
  ⟨h.same, h.stdout, h.ok, h.error⟩

/-- The delivery of the header. -/
def headerDelivery (tables : Tables) (t : FileTree) (header : Destination) (answers : Answers) :
    Delivery :=
  Artifact.header.deliver tables t header answers.header answers

/-- The delivery of the source, on the tree that the delivery of the header leaves. -/
def sourceDelivery (tables : Tables) (t : FileTree) (source header : Destination)
    (answers : Answers) : Delivery :=
  Artifact.source.deliver tables (headerDelivery tables t header answers).tree source answers.source
    answers

/-- An entry that a destination named in the tree at the start, and that names complete contents. -/
def Brought (t tree : FileTree) (destination : Destination) (contents : Bytes) (d : NodeId)
    (name : Name) : Prop :=
  destination.target? t = some (d, name) ∧
    tree.fileAt? (d, name) = some ⟨contents, writtenMode, true⟩

/-- What is meant for standard output. Both artifacts at once are not. -/
def stdoutShare (tables : Tables) : (source header : Destination) → Bytes
  | .stdout, .file _ => Artifact.source.contents tables
  | .file _, .stdout => Artifact.header.contents tables
  | _, _ => []

/-- Two destinations that are refused: standard output twice, or what is taken for one file. -/
def Refused (source header : Destination) : Prop :=
  (source = .stdout ∧ header = .stdout) ∨ source.same header = true

theorem refusal?_isSome_iff : (refusal? source header).isSome ↔ Refused source header := by
  unfold refusal? Refused
  by_cases hstdout : source = .stdout ∧ header = .stdout
  · simp [hstdout]
  · by_cases hsame : source.same header = true <;> simp [hstdout, hsame]

theorem refusal?_eq_none_iff : refusal? source header = none ↔ ¬ Refused source header := by
  rw [← refusal?_isSome_iff, Option.not_isSome_iff_eq_none]

theorem deliverArtifacts_of_refused {refusal : DeliveryError}
    (h : refusal? source header = some refusal) :
    deliverArtifacts tables t source header answers = ⟨t, [], [], .error refusal⟩ := by
  simp only [deliverArtifacts, h]

theorem deliverArtifacts_of_header_error (hrefusal : refusal? source header = none)
    {e : DeliveryError} (h : (headerDelivery tables t header answers).result = .error e) :
    deliverArtifacts tables t source header answers =
      { headerDelivery tables t header answers with
        events := tablesEvent tables :: (headerDelivery tables t header answers).events } := by
  rw [headerDelivery] at h ⊢
  simp only [deliverArtifacts, hrefusal, h]

theorem deliverArtifacts_of_header_ok (hrefusal : refusal? source header = none)
    (h : (headerDelivery tables t header answers).result = .ok ()) :
    let d := deliverArtifacts tables t source header answers
    let second := sourceDelivery tables t source header answers
    d.tree = second.tree ∧ d.result = second.result ∧
      d.stdout = (headerDelivery tables t header answers).stdout ++ second.stdout := by
  rw [headerDelivery] at h
  simp only [deliverArtifacts, hrefusal, h, sourceDelivery, headerDelivery, and_self]

/-- The shares of both artifacts make up what is meant for standard output. -/
theorem share_append_share (hrefusal : refusal? source header = none) :
    header.share (Artifact.header.contents tables) ++
      source.share (Artifact.source.contents tables) = stdoutShare tables source header := by
  cases source <;> cases header
  · -- both on standard output, which has been refused
    simp [refusal?] at hrefusal
  all_goals simp [Destination.share, stdoutShare]

/-- What has been delivered was not refused. -/
theorem refusal?_eq_none_of_ok
    (h : (deliverArtifacts tables t source header answers).result = .ok ()) :
    refusal? source header = none := by
  cases hrefusal : refusal? source header with
  | some refusal =>
    rw [deliverArtifacts_of_refused hrefusal] at h
    exact nomatch h
  | none => rfl

/-- A delivery that succeeds, on whatever tree, has put on standard output what is meant for it, and
nothing else. -/
theorem stdout_deliverArtifacts_of_ok
    (h : (deliverArtifacts tables t source header answers).result = .ok ()) :
    (deliverArtifacts tables t source header answers).stdout =
      stdoutShare tables source header := by
  have hrefusal := refusal?_eq_none_of_ok h
  cases hfirst : (headerDelivery tables t header answers).result with
  | error e =>
    rw [deliverArtifacts_of_header_error hrefusal hfirst] at h
    exact nomatch hfirst.symm.trans h
  | ok _ =>
    obtain ⟨-, hresult, hstdout⟩ := deliverArtifacts_of_header_ok hrefusal hfirst
    rw [hresult] at h
    rw [hstdout, ← share_append_share hrefusal]
    exact congrArg₂ (· ++ ·) (stdout_deliver_of_ok hfirst) (stdout_deliver_of_ok h)

/-- Changed entries make no destination stand for anything new. -/
theorem Destination.target?_of_sameExcept {t : FileTree.Sound} {after : FileTree}
    {changed : NodeId → Name → Prop} (h : t.SameExcept after changed) {destination : Destination}
    {entry : NodeId × Name} (hentry : destination.target? after = some entry) :
    destination.target? t = some entry := by
  cases destination with
  | stdout => cases hentry
  | file path => exact h.namedEntry? hentry

theorem delivered_headerDelivery (tables : Tables) (t : FileTree.Sound) (header : Destination)
    (answers : Answers) :
    Delivered t header (Artifact.header.contents tables) (headerDelivery tables t header answers) :=
  Artifact.header.delivered t header answers.header

theorem delivered_sourceDelivery (tables : Tables) (t : FileTree.Sound)
    (source header : Destination) (answers : Answers) :
    Delivered (headerDelivery tables t header answers).tree source
      (Artifact.source.contents tables) (sourceDelivery tables t source header answers) :=
  let after := t.delivered header (Artifact.header.contents tables) answers.header answers
  Artifact.source.delivered after source answers.source

section Sound

variable {t : FileTree.Sound}

/-- After both deliveries, nothing is changed but entries that hold one of the artifacts and were
named by its destination at the start. -/
theorem sameExcept_sourceDelivery :
    t.SameExcept (sourceDelivery tables t source header answers).tree fun d name =>
      Brought t (sourceDelivery tables t source header answers).tree header
        (Artifact.header.contents tables) d name ∨
      Brought t (sourceDelivery tables t source header answers).tree source
        (Artifact.source.contents tables) d name := by
  have hfirst := delivered_headerDelivery tables t header answers
  have hsecond := delivered_sourceDelivery tables t source header answers
  have hsource : ∀ {d name}, source.target? (headerDelivery tables t header answers).tree =
      some (d, name) → source.target? t = some (d, name) :=
    fun h => Destination.target?_of_sameExcept hfirst.same h
  -- an entry that both deliveries changed has the source in the end
  refine (hfirst.same.trans hsecond.same).mono fun d name hchanged => ?_
  by_cases hlast : source.target? (headerDelivery tables t header answers).tree = some (d, name) ∧
      (sourceDelivery tables t source header answers).tree.fileAt? (d, name) =
        some ⟨Artifact.source.contents tables, writtenMode, true⟩
  · exact .inr ⟨hsource hlast.1, hlast.2⟩
  · obtain ⟨hentry, hfile⟩ := hchanged.resolve_right hlast
    exact .inl ⟨hentry, hsecond.same.fileAt? hlast hfile⟩

/-- A source that is delivered after a header is where its destination led at the start. -/
theorem holds_sourceDelivery
    (hok : (sourceDelivery tables t source header answers).result = .ok ()) :
    source.Holds t (sourceDelivery tables t source header answers).tree
      (sourceDelivery tables t source header answers).stdout (Artifact.source.contents tables) := by
  have hholds := (delivered_sourceDelivery tables t source header answers).ok hok
  have hfirst := delivered_headerDelivery tables t header answers
  cases source with
  | stdout => exact hholds
  | file path =>
    obtain ⟨entry, hentry, hfile⟩ := hholds
    exact ⟨entry, hfirst.same.namedEntry? hentry, hfile⟩

/-- However both deliveries end, nothing is changed but entries of the destinations. -/
theorem sameExcept_deliverArtifacts :
    t.SameExcept (deliverArtifacts tables t source header answers).tree fun d name =>
      Brought t (deliverArtifacts tables t source header answers).tree header
        (Artifact.header.contents tables) d name ∨
      Brought t (deliverArtifacts tables t source header answers).tree source
        (Artifact.source.contents tables) d name := by
  cases hrefusal : refusal? source header with
  | some refusal =>
    rw [deliverArtifacts_of_refused hrefusal]
    exact .refl t _
  | none =>
    cases hfirst : (headerDelivery tables t header answers).result with
    | error e =>
      rw [deliverArtifacts_of_header_error hrefusal hfirst]
      exact (delivered_headerDelivery tables t header answers).same.mono fun d name h => .inl h
    | ok _ =>
      obtain ⟨htree, -, -⟩ := deliverArtifacts_of_header_ok hrefusal hfirst
      rw [htree]
      exact sameExcept_sourceDelivery

/-- However both deliveries end, standard output has got a beginning of what is meant for it. -/
theorem stdout_deliverArtifacts_isPrefix :
    (deliverArtifacts tables t source header answers).stdout <+:
      stdoutShare tables source header := by
  cases hrefusal : refusal? source header with
  | some refusal =>
    rw [deliverArtifacts_of_refused hrefusal]
    exact List.nil_prefix
  | none =>
    have hfirst := delivered_headerDelivery tables t header answers
    have hsecond := delivered_sourceDelivery tables t source header answers
    rw [← share_append_share hrefusal]
    cases hresult : (headerDelivery tables t header answers).result with
    | error e =>
      rw [deliverArtifacts_of_header_error hrefusal hresult]
      exact hfirst.stdout.trans (List.prefix_append _ _)
    | ok _ =>
      obtain ⟨-, -, hstdout⟩ := deliverArtifacts_of_header_ok hrefusal hresult
      have hheader : (headerDelivery tables t header answers).stdout =
          header.share (Artifact.header.contents tables) := stdout_deliver_of_ok hresult
      rw [hstdout, hheader]
      exact (List.prefix_append_right_inj _).mpr hsecond.stdout

end Sound

end LinearLight
