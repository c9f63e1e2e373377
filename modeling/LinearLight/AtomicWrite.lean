import LinearLight.FileTree.Operations
import LinearLight.Text.Quoted

/-!
# Writing a file atomically

New contents are staged in a file of their own, in the directory of the target and under a name not
in use. Complete, synced and with its final permissions, the staging file is moved over the target
in one call. A failure before that takes the staging file away again, so the target is at no time
partly written.

The calls are the steps of a machine. Each step is told how the system answers: it lets the call
proceed, takes only part of what is written, or makes it fail. A write that is not stepped any
further has crashed.

## Main definitions

- `WriteError`: the five ways to fail
- `AtomicWrite`, `AtomicWrite.step`: a write and its steps
- `AtomicWrite.run`: all steps, with the answers of a script first
- `FileTree.save`: a write with a staging name that is free
-/

namespace LinearLight

/-- Which call of a write failed, and why. -/
inductive WriteError where
  | create (directory : Path) (staging : Path) (cause : IoError)
  | write (path : Path) (staging : Path) (cause : IoError)
  | sync (path : Path) (cause : IoError)
  | setMode (path : Path) (cause : IoError)
  | save (path : Path) (cause : IoError)
deriving DecidableEq

namespace WriteError

def message : WriteError → String
  | create directory _ _ => "Failed to create temporary file in: " ++ directory.display
  | write path _ _ => "Failed to write: " ++ path.display
  | sync path _ => "Failed to sync: " ++ path.display
  | setMode path _ => "Failed to set permissions: " ++ path.display
  | save path _ => "Failed to save: " ++ path.display

/-- The words of a cause that concerns the staging file. -/
def atPath (cause : IoError) (staging : Path) : String :=
  cause.message ++ " at path " ++ Text.quoted staging.bytes

/-- Why it could not be done, the outermost reason first. -/
def causes : WriteError → List String
  | create _ staging cause => [atPath cause staging]
  | write _ staging cause => [atPath cause staging]
  | sync _ cause => [cause.message]
  | setMode _ cause => [cause.message]
  | save _ cause => ["failed to persist temporary file: " ++ cause.message, cause.message]

end WriteError

def stagingMode : Nat := 0o600

/-- The permission bits of a file written. -/
def writtenMode : Nat := 0o644

/-- The directory that a path's staging file is made in: the parent as written, or the current
directory when there is none or it is empty. -/
def Path.stagingDirectory (p : Path) : Path :=
  match p.parent? with
  | some parent => if parent.isEmpty then ⟨Path.dot⟩ else parent
  | none => ⟨Path.dot⟩

/-- The absolute path of a staging file with a given name, seen from a current directory. -/
def Path.stagingPath (p current : Path) (name : Name) : Path :=
  (current.join p.stagingDirectory).join ⟨name⟩

/-- A staging file: its entry and its node. -/
structure Staging where
  directory : NodeId
  name : Name
  file : NodeId
deriving DecidableEq

/-- How far a write has come. -/
inductive Stage where
  | creating
  | writing (staging : Staging) (left : Bytes)
  | syncing (staging : Staging)
  | settingMode (staging : Staging)
  | saving (staging : Staging)
  /-- A call has failed and the staging file is still there. -/
  | abandoning (staging : Staging) (error : WriteError)
  | finished (result : Except WriteError Unit)

/-- A write to a path, with the name of its staging file and how far it has come. -/
structure AtomicWrite where
  path : Path
  contents : Bytes
  stagingName : Name
  stage : Stage := .creating

/-- How the system answers to a call. -/
inductive Answer where
  /-- The call does what it can on the tree. -/
  | proceed
  /-- Of what is written, at most this many bytes are taken; other calls proceed. -/
  | accept (count : Nat)
  | fail (cause : IoError)
deriving DecidableEq

namespace AtomicWrite

def stagingPath (w : AtomicWrite) (t : FileTree) : Path :=
  w.path.stagingPath t.currentPath w.stagingName

/-- The staging file made, or the system's failure to make it. -/
def createStaging (w : AtomicWrite) (t : FileTree) : Except Errno (Staging × FileTree) := do
  FileTree.checkPath (w.stagingPath t)
  let directory ← t.resolveDirectory w.path.stagingDirectory
  let after ← t.createExclusive directory w.stagingName stagingMode
  -- the new file gets the number that was fresh before
  return (⟨directory, w.stagingName, t.fresh⟩, after)

/-- The staging file made, or the failure to make it. The system is not asked about a path that it
has no form for. -/
def create (w : AtomicWrite) (t : FileTree) : Except IoError (Staging × FileTree) :=
  if (w.stagingPath t).hasZeroByte then .error .zeroByteInPath
  else (w.createStaging t).mapError .system

/-- The stage in which contents are still to be written. -/
def writingStage (staging : Staging) (left : Bytes) : Stage :=
  if left.isEmpty then .syncing staging else .writing staging left

/-- The tree with more bytes at the end of the staging file. -/
def append (staging : Staging) (bytes : Bytes) (t : FileTree) : FileTree :=
  t.modifyFile staging.file fun f => { f with data := f.data ++ bytes, synced := false }

/-- One call, answered by the system: the write and the tree after it. -/
def step (w : AtomicWrite) (t : FileTree) (answer : Answer) : AtomicWrite × FileTree :=
  let next (stage : Stage) (t : FileTree) : AtomicWrite × FileTree := ({ w with stage := stage }, t)
  match w.stage, answer with
  | .creating, .fail cause =>
    next (.finished (.error (.create w.path.stagingDirectory (w.stagingPath t) cause))) t
  | .creating, _ =>
    match w.create t with
    | .ok (staging, t) => next (writingStage staging w.contents) t
    | .error e =>
      next (.finished (.error (.create w.path.stagingDirectory (w.stagingPath t) e))) t
  | .writing staging left, .proceed => next (.syncing staging) (append staging left t)
  -- a writer that gets rid of nothing gives up, as it would go on for ever
  | .writing staging _, .accept 0 =>
    next (.abandoning staging (.write w.path (w.stagingPath t) .nothingAccepted)) t
  | .writing staging left, .accept count =>
    next (writingStage staging (left.drop count)) (append staging (left.take count) t)
  | .writing staging left, .fail cause =>
    -- an interrupted call is made again
    if cause.isInterrupted then next (.writing staging left) t
    else next (.abandoning staging (.write w.path (w.stagingPath t) cause)) t
  | .syncing staging, .fail cause => next (.abandoning staging (.sync w.path cause)) t
  | .syncing staging, _ =>
    next (.settingMode staging) (t.modifyFile staging.file fun f => { f with synced := true })
  | .settingMode staging, .fail cause => next (.abandoning staging (.setMode w.path cause)) t
  | .settingMode staging, _ =>
    next (.saving staging) (t.modifyFile staging.file fun f => { f with mode := writtenMode })
  | .saving staging, .fail cause => next (.abandoning staging (.save w.path cause)) t
  | .saving staging, _ =>
    match t.rename staging.directory staging.name staging.file w.path with
    | .ok t => next (.finished (.ok ())) t
    | .error e => next (.abandoning staging (.save w.path (.system e))) t
  | .abandoning staging error, _ =>
    -- the staging file goes, with its entry, and the first failure is the one that is told
    next (.finished (.error error))
      ((t.removeEntry staging.directory staging.name).remove staging.file)
  | .finished result, _ => next (.finished result) t

/-- The most steps that can follow a stage when every call proceeds. -/
def stepsLeft : Stage → Nat
  | .creating => 6
  | .writing .. => 5
  | .syncing _ => 4
  | .settingMode _ => 3
  | .saving _ => 2
  | .abandoning .. => 1
  | .finished _ => 0

theorem stepsLeft_step_lt (w : AtomicWrite) (t : FileTree) (h : stepsLeft w.stage ≠ 0) :
    stepsLeft (w.step t .proceed).1.stage < stepsLeft w.stage := by
  obtain ⟨path, contents, name, stage⟩ := w
  cases stage with
  | creating =>
    simp only [step]
    split
    · simp only [writingStage]
      split <;> simp [stepsLeft]
    · simp [stepsLeft]
  | saving staging =>
    simp only [step]
    split <;> simp [stepsLeft]
  | finished result => exact absurd rfl h
  | _ => simp [step, stepsLeft]

def result? (w : AtomicWrite) : Option (Except WriteError Unit) :=
  match w.stage with
  | .finished result => some result
  | _ => none

theorem stepsLeft_ne_zero {w : AtomicWrite} (h : w.result? = none) : stepsLeft w.stage ≠ 0 := by
  obtain ⟨path, contents, name, stage⟩ := w
  cases stage <;> simp_all [result?, stepsLeft]

/-- The result of a write and the tree it leaves, when all calls from now on proceed. -/
def finish (w : AtomicWrite) (t : FileTree) : Except WriteError Unit × FileTree :=
  match _h : w.result? with
  | some result => (result, t)
  | none => (w.step t .proceed).1.finish (w.step t .proceed).2
termination_by stepsLeft w.stage
decreasing_by exact stepsLeft_step_lt w t (stepsLeft_ne_zero (by assumption))

/-- The result of a write and the tree it leaves, when the calls are answered as a script says and
proceed after its end. -/
def run (w : AtomicWrite) (t : FileTree) :
    (script : List Answer) → Except WriteError Unit × FileTree
  | [] => w.finish t
  | answer :: script => (w.step t answer).1.run (w.step t answer).2 script

end AtomicWrite

def stagingDigits : Nat := 6

/-- A name for a staging file: six digits that count the names tried. -/
def stagingName (n : Nat) : Name :=
  let digits := Decimal.digitsOf n
  bytesOf (".tmp" ++
    String.ofList (List.replicate (stagingDigits - digits.length) '0' ++ digits))

/-- The entries of the directory that a path's staging file goes to; none if it leads nowhere. -/
def FileTree.stagingEntries (t : FileTree) (p : Path) : List (Name × NodeId) :=
  match t.resolveDirectory p.stagingDirectory with
  | .error _ => []
  | .ok directory => ((t.directory? directory).map Prod.snd).getD []

/-- The first staging name that neither is in use where a path's staging file goes nor occurs in
the path itself. -/
def FileTree.freeStagingName (t : FileTree) (p : Path) : Name :=
  let used := (t.stagingEntries p).map Prod.fst ++ p.names
  -- one name more than those in use, so that one of them is free
  let names := (List.range (used.length + 1)).map stagingName
  (names.find? fun name => !used.contains name).getD (stagingName 0)

/-- A write of contents to a path, not yet begun. -/
def AtomicWrite.begin (t : FileTree) (p : Path) (contents : Bytes) : AtomicWrite :=
  { path := p, contents := contents, stagingName := t.freeStagingName p }

/-- Contents written to a path while the calls are answered as a script says. -/
def FileTree.save (t : FileTree) (p : Path) (contents : Bytes) (script : List Answer := []) :
    Except WriteError Unit × FileTree :=
  (AtomicWrite.begin t p contents).run t script

end LinearLight
