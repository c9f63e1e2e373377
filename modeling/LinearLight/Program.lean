import LinearLight.CommandLine
import LinearLight.CommandLine.Help
import LinearLight.Delivery
import LinearLight.Log.Directive

/-!
# The program

One invocation from its arguments to its exit code. Standard output takes help, the version, or an
artifact; everything else that is said goes to standard error. The reader of filters is given with
the invocation, as all that is asked of it is that it comes back; if it does not, the program is
down before anything has been written.

## Main definitions

- `Invocation`: what the program is started with
- `Outcome`: what it leaves behind
- `Invocation.run`: the one from the other
-/

namespace LinearLight

/-- What the program is started with. -/
structure Invocation where
  arguments : List Bytes
  /-- The text that is to decide about logging, if there is one. -/
  logFilter : Option Bytes := none
  /-- How the system answers; standard output accepts everything if nothing is said. -/
  answers : Answers := {}

/-- What the program leaves behind. -/
structure Outcome where
  exitCode : Nat
  tree : FileTree
  stdout : Bytes
  /-- The events that the filter admits. -/
  events : List Log.Event
  /-- The text on standard error after the lines of the events. -/
  complaint : String

/-- The rank of the events logged for a verbosity, when nothing else decides. -/
def verbosityRank (verbosity : Nat) : Nat :=
  (Log.Level.warn.rank + verbosity).min Log.Level.trace.rank

/-- The filter for a run: the text given for it, if it is well formed, and else the verbosity. There
is none if reading the text brings the program down. -/
def logFilterFor (read : Log.Reader) (text : Option Bytes) (verbosity : Nat) : Option Log.Filter :=
  match text.map read with
  | some (.ok filter) => some filter
  | some (.error .crash) => none
  | _ => some (.all (verbosityRank verbosity))

/-- The causes of a failure, in lines of their own; several are numbered. -/
def causeLines : List String → String
  | [] => ""
  | [cause] => "\nCaused by:\n    " ++ cause ++ "\n"
  | causes =>
    "\nCaused by:\n" ++ String.join (causes.mapIdx fun i cause =>
      "    " ++ Decimal.ofNat i ++ ": " ++ cause ++ "\n")

def DeliveryError.report (e : DeliveryError) : String :=
  "Error: " ++ e.message ++ "\n" ++ causeLines e.causes

/-- The outcome of a program that was brought down before it wrote anything. What is said about it
on standard error is not the program's. -/
def Outcome.crashed (t : FileTree) : Outcome := ⟨101, t, [], [], ""⟩

/-- The answers of a system whose standard output has no space. -/
def Answers.fullStdout : Answers := { stdout := [.fail (.system .noSpace)] }

namespace Invocation

/-- The outcome of an invocation that only shows a text. What does not fit is not missed. -/
def showText (i : Invocation) (t : FileTree) (text : String) : Outcome :=
  { exitCode := 0
    tree := t
    stdout := (writeTo i.answers.stdout i.answers.stdoutFlush (bytesOf text)).accepted
    events := []
    complaint := "" }

/-- The outcome of an invocation on a tree. -/
def run (i : Invocation) (t : FileTree) (read : Log.Reader := Log.Filter.read) : Outcome :=
  match CommandLine.parse i.arguments with
  | .error .shortHelp => i.showText t CommandLine.shortHelp
  | .error .longHelp => i.showText t CommandLine.longHelp
  | .error .version => i.showText t CommandLine.versionText
  | .error (.usage error) => ⟨2, t, [], [], error.text⟩
  | .ok options =>
    match logFilterFor read i.logFilter options.verbosity with
    | none => .crashed t
    | some filter =>
      let d := deliverArtifacts .ofCurve t options.source options.header i.answers
      let events := d.events.filter filter.admits
      match d.result with
      | .ok () => ⟨0, d.tree, d.stdout, events, ""⟩
      | .error e => ⟨1, d.tree, d.stdout, events, e.report⟩

end Invocation

/-- The text on standard error, when every event is given the same time. -/
def Outcome.stderr (o : Outcome) (time : String) : String :=
  String.join (o.events.map (·.line time)) ++ o.complaint

end LinearLight
