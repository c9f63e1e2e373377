import LinearLight.FileTree.Arrange
import LinearLight.Program
import LinearLight.Proofs.Code.Artifact
import LinearLight.Proofs.Delivery.Both
import LinearLight.Proofs.Program.Logging
import LinearLight.Writer

/-!
# How the program ends

Every invocation, on every tree and whatever the system answers, ends in one of four ways: the
command line is faulty, a text is shown, both artifacts are delivered, or they could not both be.
Standard output is left to the one artifact meant for it, and after a delivery an exit code of zero
vouches for all of its bytes. The reader of filters has to come back for that; what is left if it
does not is in `Invocation.run_of_not_returns`.

## Main definitions

- `CommandLine.Stop.text?`: the text that is shown instead of generating anything
- `WithoutArtifacts`: an output that does not go on as an artifact begins, from any place
- `Artifact.destination`: where a command line wants an artifact
- `Ends`: the four ways

## Main statements

- `withoutArtifacts_of_text?`: none of the texts shown could be taken for an artifact
- `Invocation.run_ends`
-/

namespace LinearLight

open CommandLine

/-! ### The texts shown -/

/-- The text that is shown where reading ended early, if one was asked for. -/
def CommandLine.Stop.text? : Stop → Option String
  | shortHelp => some CommandLine.shortHelp
  | longHelp => some CommandLine.longHelp
  | version => some versionText
  | usage _ => none

/-- An output that does not go on as an artifact begins, from any place. -/
def WithoutArtifacts (output : Bytes) : Prop :=
  ∀ (a : Artifact) (tables : Tables), ¬ (a.contents tables).take 2 <:+: output

theorem WithoutArtifacts.of_isPrefix {output text : Bytes} (h : WithoutArtifacts text)
    (hbeginning : output <+: text) : WithoutArtifacts output :=
  fun a tables hpart => h a tables (hpart.trans hbeginning.isInfix)

/-- The header begins with a pragma, the source with an inclusion. -/
theorem withoutArtifacts_of_not_isInfix {output : Bytes}
    (h : ¬ [0x23, 0x70] <:+: output ∧ ¬ [0x23, 0x69] <:+: output) : WithoutArtifacts output := by
  intro a tables hpart
  cases a with
  | header =>
    rw [Artifact.contents, Artifact.text, Code.take_bytesOf_header] at hpart
    exact h.1 hpart
  | source =>
    rw [Artifact.contents, Artifact.text, Code.take_bytesOf_source] at hpart
    exact h.2 hpart

/-- In none of the texts shown is there a place from which it goes on as an artifact begins. -/
theorem withoutArtifacts_of_text? {stop : Stop} {text : String} (h : stop.text? = some text) :
    WithoutArtifacts (bytesOf text) := by
  apply withoutArtifacts_of_not_isInfix
  rw [bytesOf_eq_flatMap]
  cases stop with
  | shortHelp =>
    obtain rfl := Option.some.inj h
    unfold shortHelp usageLine programName
    simp only [String.toList_append]
    decide +kernel
  | longHelp =>
    obtain rfl := Option.some.inj h
    unfold longHelp usageLine programName
    simp only [String.toList_append]
    decide +kernel
  | version =>
    obtain rfl := Option.some.inj h
    decide +kernel
  | usage error => exact nomatch h

/-! ### The four ways -/

/-- Where a command line wants an artifact. -/
def Artifact.destination (options : Options) : Artifact → Destination
  | header => options.header
  | source => options.source

/-- The delivery that a command line asks for. -/
def Invocation.delivery (i : Invocation) (t : FileTree) (options : Options) : Delivery :=
  deliverArtifacts .ofCurve t options.source options.header i.answers

/-- The ways in which an invocation on a tree can end. -/
inductive Ends (i : Invocation) (t : FileTree) (o : Outcome) : Prop
  /-- The command line is faulty. -/
  | faulty {error : UsageError} (read : parse i.arguments = .error (.usage error))
      (exitCode : o.exitCode = 2) (tree : o.tree = t) (stdout : o.stdout = [])
  /-- Help or the version is shown, and all of it if standard output accepts it. -/
  | shown {stop : Stop} {text : String} (read : parse i.arguments = .error stop)
      (asked : stop.text? = some text) (exitCode : o.exitCode = 0) (tree : o.tree = t)
      (stdout : o.stdout <+: bytesOf text)
      (accepted : i.answers.stdout = [] → o.stdout = bytesOf text)
      (apart : WithoutArtifacts o.stdout)
  /-- Both artifacts are delivered. The one meant for standard output is there, byte for byte as a
  sink that accepts everything gets it; if none is, nothing is. -/
  | delivered {options : Options} (read : parse i.arguments = .ok options)
      (result : (i.delivery t options).result = .ok ()) (exitCode : o.exitCode = 0)
      (tree : o.tree = (i.delivery t options).tree)
      (piped : ∀ a : Artifact, a.destination options = .stdout →
        o.stdout = a.contents .ofCurve ∧
          o.stdout = (a.writeInto .ofCurve [] none).1.accepted)
      (silent : (∀ a : Artifact, a.destination options ≠ .stdout) → o.stdout = [])
  /-- The artifacts are refused, or could not both be delivered. -/
  | failed {options : Options} {e : DeliveryError} (read : parse i.arguments = .ok options)
      (result : (i.delivery t options).result = .error e) (exitCode : o.exitCode = 1)
      (tree : o.tree = (i.delivery t options).tree)
      (stdout : o.stdout = (i.delivery t options).stdout)

variable (i : Invocation) (t : FileTree)

theorem ends_showText {stop : Stop} {text : String} (read : parse i.arguments = .error stop)
    (asked : stop.text? = some text) : Ends i t (i.showText t text) := by
  have hbeginning : (i.showText t text).stdout <+: bytesOf text := accepted_writeTo_isPrefix _ _ _
  refine .shown read asked rfl rfl hbeginning (fun haccepting => ?_)
    ((withoutArtifacts_of_text? asked).of_isPrefix hbeginning)
  rw [Invocation.showText, haccepting]
  exact accepted_writeTo_nil _ _

/-- What a delivery that succeeds has put on standard output, artifact by artifact. -/
theorem stdout_delivery {options : Options} (hok : (i.delivery t options).result = .ok ()) :
    (∀ a : Artifact, a.destination options = .stdout →
      (i.delivery t options).stdout = a.contents .ofCurve) ∧
    ((∀ a : Artifact, a.destination options ≠ .stdout) → (i.delivery t options).stdout = []) := by
  have hstdout : (i.delivery t options).stdout =
      stdoutShare .ofCurve options.source options.header := stdout_deliverArtifacts_of_ok hok
  have hrefusal : refusal? options.source options.header = none := refusal?_eq_none_of_ok hok
  rw [hstdout]
  constructor
  · intro a ha
    obtain ⟨source, header, verbosity⟩ := options
    cases a with
    | header =>
      obtain rfl : header = .stdout := ha
      cases source with
      | stdout => simp [refusal?] at hrefusal
      | file path => rfl
    | source =>
      obtain rfl : source = .stdout := ha
      cases header with
      | stdout => simp [refusal?] at hrefusal
      | file path => rfl
  · intro hnone
    obtain ⟨source, header, verbosity⟩ := options
    cases source with
    | stdout => exact absurd rfl (hnone .source)
    | file path =>
      cases header with
      | stdout => exact absurd rfl (hnone .header)
      | file path' => rfl

/-- An invocation whose command line is complete leaves what its delivery leaves. -/
theorem Invocation.run_of_parse_ok {read : Log.Reader} (hreader : read.Returns i.logFilter)
    {options : Options} (hoptions : parse i.arguments = .ok options) :
    (i.run t read).tree = (i.delivery t options).tree ∧
      (i.run t read).stdout = (i.delivery t options).stdout ∧
      (i.run t read).exitCode = match (i.delivery t options).result with
        | .ok () => 0
        | .error _ => 1 := by
  obtain ⟨filter, hfilter⟩ := (exists_logFilterFor_iff options.verbosity).mpr hreader
  unfold run delivery
  rw [hoptions]
  simp only [hfilter]
  cases (deliverArtifacts .ofCurve t options.source options.header i.answers).result with
  | ok _ => exact ⟨rfl, rfl, rfl⟩
  | error e => exact ⟨rfl, rfl, rfl⟩

/-- Every invocation, on every tree and whatever the system answers, ends in one of the four ways,
if the reader comes back from the text that is to decide about logging. -/
theorem Invocation.run_ends {read : Log.Reader} (hreader : read.Returns i.logFilter) :
    Ends i t (i.run t read) := by
  cases hread : parse i.arguments with
  | error stop =>
    have hshown : ∀ {text}, stop.text? = some text → i.run t read = i.showText t text →
        Ends i t (i.run t read) := fun asked hrun => hrun ▸ ends_showText i t hread asked
    cases stop with
    | shortHelp => exact hshown rfl (by rw [run, hread])
    | longHelp => exact hshown rfl (by rw [run, hread])
    | version => exact hshown rfl (by rw [run, hread])
    | usage error =>
      have hrun : i.run t read = ⟨2, t, [], [], error.text⟩ := by rw [run, hread]
      rw [hrun]
      exact .faulty hread rfl rfl rfl
  | ok options =>
    obtain ⟨htree, hstdout, hexit⟩ := i.run_of_parse_ok t hreader hread
    cases hresult : (i.delivery t options).result with
    | ok _ =>
      obtain ⟨hpiped, hsilent⟩ := stdout_delivery i t hresult
      rw [hresult] at hexit
      refine .delivered hread hresult hexit htree (fun a ha => ?_) (fun hnone => ?_)
      · have hcontents := hstdout.trans (hpiped a ha)
        exact ⟨hcontents, hcontents.trans (accepted_writeTo_nil none _).symm⟩
      · exact hstdout.trans (hsilent hnone)
    | error e =>
      rw [hresult] at hexit
      exact .failed hread hresult hexit htree hstdout

/-- A source on standard output that has no space, with debugging asked for. -/
theorem Invocation.run_ends_of_full_stdout :
    let i : Invocation :=
      { arguments := [[dash], [0x68]]
        logFilter := some [0x64, 0x65, 0x62, 0x75, 0x67]
        answers := .fullStdout }
    Log.Filter.read.Returns i.logFilter ∧ Ends i .bare (i.run .bare) := by
  intro i
  have hreader : Log.Filter.read.Returns i.logFilter := by
    refine Log.Filter.returns_read fun text htext item hitem => .inr ?_
    obtain rfl : "debug" = text := Option.some.inj htext
    obtain rfl : item = ['d', 'e', 'b', 'u', 'g'] := List.mem_singleton.mp hitem
    simp
  exact ⟨hreader, i.run_ends .bare hreader⟩

end LinearLight
