import LinearLight.FileTree.Arrange
import LinearLight.Program
import LinearLight.Proofs.CommandLine.Verbosity
import LinearLight.Proofs.Log.Reader

/-!
# Logging is apart from the product

The text that decides about logging, and the arguments that ask for more of it, decide which events
are reported and nothing else. Two invocations that differ in nothing but these end with the same
exit code, and leave the same tree and the same standard output, as long as the reader of filters
comes back from their texts. A reader that does not is the end of the program, before anything is
written.

## Main definitions

- `Outcome.silenced`: an outcome as it is when no events are reported
- `Invocation.quiet`: an invocation that leaves logging as it is by default

## Main statements

- `Invocation.exists_logFilterFor_iff`: when there is a filter for a run
- `Invocation.run_of_not_returns`: what is left by a reader that does not come back
- `Invocation.silenced_run_quiet`: what an invocation leaves besides the events, a quiet one leaves
- `Invocation.run_apart_from_logging`
-/

namespace LinearLight

open CommandLine

/-- An outcome as it is when no events are reported. -/
def Outcome.silenced (o : Outcome) : Outcome := { o with events := [] }

namespace Invocation

/-- An invocation without whatever decides about logging. -/
def quiet (i : Invocation) : Invocation :=
  { arguments := withoutVerbosity i.arguments, answers := i.answers }

variable {read : Log.Reader}

/-- There is a filter for a run just if the reader comes back from the text given for it. -/
theorem exists_logFilterFor_iff {text : Option Bytes} (verbosity : Nat) :
    (∃ filter, logFilterFor read text verbosity = some filter) ↔ read.Returns text := by
  cases text with
  | none => simp [logFilterFor, Log.Reader.Returns]
  | some bytes =>
    cases hread : read bytes with
    | ok filter => simp [logFilterFor, Log.Reader.Returns, hread]
    | error fault => cases fault <;> simp [logFilterFor, Log.Reader.Returns, hread]

/-- A reader that does not come back brings the program down, if it is asked at all. -/
theorem run_of_not_returns {i : Invocation} {options : Options}
    (hoptions : parse i.arguments = .ok options) (hreader : ¬ read.Returns i.logFilter)
    (t : FileTree) : i.run t read = .crashed t := by
  have hnone : logFilterFor read i.logFilter options.verbosity = none :=
    Option.eq_none_iff_forall_ne_some.mpr fun filter hfilter =>
      hreader ((exists_logFilterFor_iff options.verbosity).mp ⟨filter, hfilter⟩)
  rw [run, hoptions]
  simp only [hnone]

/-- What is read besides the verbosity, and the answers, decide about everything but the events. -/
theorem silenced_run_congr {i j : Invocation} (hi : read.Returns i.logFilter)
    (hj : read.Returns j.logFilter) (hanswers : i.answers = j.answers)
    (hread : (parse i.arguments).map Options.outlets = (parse j.arguments).map Options.outlets)
    (t : FileTree) : (i.run t read).silenced = (j.run t read).silenced := by
  unfold run showText
  rw [hanswers]
  generalize parse i.arguments = reading at hread ⊢
  generalize parse j.arguments = reading' at hread ⊢
  cases reading with
  | error stop =>
    cases reading' with
    | error stop' =>
      rw [Except.error.inj hread]
      cases stop' <;> rfl
    | ok options' => exact nomatch hread
  | ok options =>
    cases reading' with
    | error stop' => exact nomatch hread
    | ok options' =>
      obtain ⟨hsource, hheader⟩ := Prod.mk.inj (Except.ok.inj hread)
      obtain ⟨filter, hfilter⟩ := (exists_logFilterFor_iff options.verbosity).mpr hi
      obtain ⟨filter', hfilter'⟩ := (exists_logFilterFor_iff options'.verbosity).mpr hj
      simp only [hsource, hheader, hfilter, hfilter']
      cases (deliverArtifacts .ofCurve t options'.source options'.header j.answers).result <;> rfl

theorem silenced_run_quiet {i : Invocation} (hi : read.Returns i.logFilter) (t : FileTree) :
    (i.run t read).silenced = (i.quiet.run t read).silenced :=
  silenced_run_congr (j := i.quiet) hi trivial rfl (parse_withoutVerbosity i.arguments) t

/-- Two invocations whose arguments are the same without those that ask for more logging, and that
the system answers alike, differ in the events reported at most. Each may be given any text that is
to decide about logging, or none, as long as the reader comes back from it. -/
theorem run_apart_from_logging {i j : Invocation} (hi : read.Returns i.logFilter)
    (hj : read.Returns j.logFilter)
    (harguments : withoutVerbosity i.arguments = withoutVerbosity j.arguments)
    (hanswers : i.answers = j.answers) (t : FileTree) :
    (i.run t read).exitCode = (j.run t read).exitCode ∧
      (i.run t read).stdout = (j.run t read).stdout ∧
      (i.run t read).tree = (j.run t read).tree ∧
      (i.run t read).complaint = (j.run t read).complaint := by
  have hquiet : i.quiet = j.quiet := by rw [quiet, quiet, harguments, hanswers]
  have hsilenced : (i.run t read).silenced = (j.run t read).silenced := by
    rw [silenced_run_quiet hi, silenced_run_quiet hj, hquiet]
  exact ⟨congrArg (·.exitCode) hsilenced, congrArg (·.stdout) hsilenced,
    congrArg (·.tree) hsilenced, congrArg (·.complaint) hsilenced⟩

/-- A source on standard output, once with debugging asked for and a malformed filter. -/
theorem run_apart_from_logging_of_piped_source :
    let loud : Invocation :=
      { arguments := [[dash], [dash, verboseLetter, verboseLetter], [0x68]]
        logFilter := some [0x3D] }
    let plain : Invocation := { arguments := [[dash], [0x68]] }
    Log.Filter.read.Returns loud.logFilter ∧ Log.Filter.read.Returns plain.logFilter ∧
      withoutVerbosity loud.arguments = withoutVerbosity plain.arguments ∧
      loud.answers = plain.answers ∧
      (loud.run .bare).exitCode = (plain.run .bare).exitCode ∧
      (loud.run .bare).stdout = (plain.run .bare).stdout ∧
      (loud.run .bare).tree = (plain.run .bare).tree ∧
      (loud.run .bare).complaint = (plain.run .bare).complaint := by
  intro loud plain
  have hloud : Log.Filter.read.Returns loud.logFilter := by
    refine Log.Filter.returns_read fun text htext item hitem => .inr ?_
    obtain rfl : "=" = text := Option.some.inj htext
    obtain rfl : item = ['='] := List.mem_singleton.mp hitem
    simp
  have hasks : asksForLogging [dash, verboseLetter, verboseLetter] = true :=
    Bool.or_eq_true_iff.mpr (.inr (by decide))
  have hbefore : [dash, dash] ∉ [[dash]] := by decide
  have harguments : withoutVerbosity loud.arguments = withoutVerbosity plain.arguments :=
    withoutVerbosity_insert hbefore hasks [[0x68]]
  exact ⟨hloud, trivial, harguments, rfl,
    run_apart_from_logging (j := plain) hloud trivial harguments rfl .bare⟩

end Invocation

end LinearLight
