import LinearLight.AtomicWrite
import LinearLight.Code.Artifact
import LinearLight.Destination
import LinearLight.Log

/-!
# Bringing the artifacts to their destinations

The header is delivered first, then the source; a header that cannot be delivered keeps the source
from being begun. Two destinations that are taken for one are refused before anything is written.

## Main definitions

- `DeliveryError`: a refusal, or a failure to write
- `Delivery`: what came of writing
- `deliver`: contents brought to one destination
- `Artifact`: one of the two artifacts, its text and its announcement
- `deliverArtifacts`: both artifacts brought to their destinations
-/

namespace LinearLight

/-- Why the artifacts were not, or not both, delivered. -/
inductive DeliveryError where
  | bothStdout
  | sameOutput (output : Destination)
  | stdoutWrite (cause : IoError)
  | stdoutFlush (cause : IoError)
  | file (cause : WriteError)
deriving DecidableEq

namespace DeliveryError

def message : DeliveryError → String
  | bothStdout => "Source and header cannot both be written to stdout"
  | sameOutput output => "Source and header outputs must differ: " ++ output.display
  | stdoutWrite _ => "Failed to write to stdout"
  | stdoutFlush _ => "Failed to flush stdout"
  | file cause => cause.message

/-- Why it could not be done, the outermost reason first. -/
def causes : DeliveryError → List String
  | bothStdout => []
  | sameOutput _ => []
  | stdoutWrite cause => [cause.message]
  | stdoutFlush cause => [cause.message]
  | file cause => cause.causes

end DeliveryError

/-- What came of writing: the tree left, the bytes put on standard output, the events reported. -/
structure Delivery where
  tree : FileTree
  stdout : Bytes
  events : List Log.Event
  result : Except DeliveryError Unit

/-- How the system answers while the artifacts are written. -/
structure Answers where
  header : List Answer := []
  source : List Answer := []
  stdout : List WriteAnswer := []
  stdoutFlush : Option IoError := none

def stagedEvent (size : Nat) (staging : Path) : Log.Event :=
  ⟨.trace, "srgb_gen::output",
    "Staging " ++ Decimal.ofNat size ++ " bytes in " ++ staging.display⟩

def wroteEvent (path : Path) : Log.Event :=
  ⟨.debug, "srgb_gen::output", "Wrote " ++ path.display⟩

/-- The events of an atomic write with a result. -/
def AtomicWrite.events (w : AtomicWrite) (t : FileTree) (result : Except WriteError Unit) :
    List Log.Event :=
  let staged := stagedEvent w.contents.length (w.stagingPath t)
  match result with
  | .error (.create ..) => []
  | .error _ => [staged]
  | .ok () => [staged, wroteEvent w.path]

/-- Contents brought to a destination. Answers for files count only if it is a file, answers for
standard output only if it is not. -/
def deliver (t : FileTree) (destination : Destination) (contents : Bytes) (files : List Answer)
    (answers : Answers) : Delivery :=
  match destination with
  | .stdout =>
    let transcript := writeTo answers.stdout answers.stdoutFlush contents
    let error := if transcript.flushes = 0 then DeliveryError.stdoutWrite else .stdoutFlush
    ⟨t, transcript.accepted, [], transcript.outcome.mapError error⟩
  | .file path =>
    let (result, after) := t.save path contents files
    ⟨after, [], (AtomicWrite.begin t path contents).events t result, result.mapError .file⟩

inductive Artifact where
  | header
  | source
deriving DecidableEq

namespace Artifact

def word : Artifact → String
  | header => "header"
  | source => "source"

def text (tables : Tables) : Artifact → String
  | header => Code.header
  | source => Code.source tables

def contents (tables : Tables) (a : Artifact) : Bytes := bytesOf (a.text tables)

def announcement (a : Artifact) (destination : Destination) : Log.Event :=
  ⟨.info, "srgb_gen::generate", "Writing " ++ a.word ++ " to " ++ destination.display⟩

end Artifact

/-- The event that sums up the tables: their first and last entries. -/
def tablesEvent (t : Tables) : Log.Event :=
  ⟨.debug, "srgb_lut::table",
    "Built decode tables: 16-bit [" ++ Decimal.ofNat (t.lookup16 0).toNat ++ ", " ++
      Decimal.ofNat (t.lookup16 255).toNat ++ "], 8-bit [" ++ Decimal.ofNat (t.lookup8 0).toNat ++
      ", " ++ Decimal.ofNat (t.lookup8 255).toNat ++ "]"⟩

/-- The event that sums up a run: the sizes of both artifacts. -/
def summaryEvent (tables : Tables) : Log.Event :=
  ⟨.debug, "srgb_gen::generate",
    "Generated " ++ Decimal.ofNat (Artifact.header.contents tables).length ++ " header bytes, " ++
      Decimal.ofNat (Artifact.source.contents tables).length ++ " source bytes"⟩

/-- An artifact announced and brought to its destination. -/
def Artifact.deliver (a : Artifact) (tables : Tables) (t : FileTree) (destination : Destination)
    (files : List Answer) (answers : Answers) : Delivery :=
  let d := LinearLight.deliver t destination (a.contents tables) files answers
  { d with events := a.announcement destination :: d.events }

/-- The refusal of two destinations, if they are refused. -/
def refusal? (source header : Destination) : Option DeliveryError :=
  if source = .stdout ∧ header = .stdout then some .bothStdout
  else if source.same header then some (.sameOutput source)
  else none

/-- The artifacts for given tables brought to two destinations, the header first. -/
def deliverArtifacts (tables : Tables) (t : FileTree) (source header : Destination)
    (answers : Answers := {}) : Delivery :=
  match refusal? source header with
  | some refusal => ⟨t, [], [], .error refusal⟩
  | none =>
    let first := Artifact.header.deliver tables t header answers.header answers
    let begun := tablesEvent tables :: first.events
    match first.result with
    | .error e => { first with events := begun, result := .error e }
    | .ok () =>
      let second := Artifact.source.deliver tables first.tree source answers.source answers
      let events := begun ++ second.events
      { tree := second.tree
        stdout := first.stdout ++ second.stdout
        events := match second.result with
          | .ok () => events ++ [summaryEvent tables]
          | .error _ => events
        result := second.result }

end LinearLight
