import LinearLight.Program

/-!
# The program on a real system

The outer layer: arguments, environment, files and standard streams of the system it runs on. The
texts, the names, the refusals and the events are those of the other modules. The calls are made
here, in the order of `AtomicWrite.step` and `deliverArtifacts`; it is written out once more, since
those change a tree that they are given, and here the tree is the system's own.
-/

namespace LinearLight

/-- The system's number for a failed call, if it gave one. -/
def systemCode? : IO.Error → Option UInt32
  | .alreadyExists _ code _ => some code
  | .otherError code _ => some code
  | .resourceBusy code _ => some code
  | .resourceVanished code _ => some code
  | .unsupportedOperation code _ => some code
  | .hardwareFault code _ => some code
  | .unsatisfiedConstraints code _ => some code
  | .illegalOperation code _ => some code
  | .protocolError code _ => some code
  | .timeExpired code _ => some code
  | .interrupted _ code _ => some code
  | .noFileOrDirectory _ code _ => some code
  | .invalidArgument _ code _ => some code
  | .permissionDenied _ code _ => some code
  | .resourceExhausted _ code _ => some code
  | .inappropriateType _ code _ => some code
  | .noSuchThing _ code _ => some code
  | _ => none

/-- A failed call in the terms of this library. -/
def IoError.ofSystem (e : IO.Error) : IoError :=
  match systemCode? e with
  | some code => .system (.ofCode code.toNat e.toString)
  | none => .custom .other e.toString

/-- A call whose failure is told in other terms. -/
def attempt {α ε : Type} (call : IO α) (failure : IoError → ε) : EIO ε α :=
  call.toEIO fun e => failure (.ofSystem e)

/-- The line of an event on standard error, if the filter admits it. -/
def report {ε : Type} (filter : Log.Filter) (e : Log.Event) : EIO ε Unit := do
  if filter.admits e then
    let time ← IO.monoMsNow
    let written ← (IO.eprint (e.line (Decimal.ofNat time))).toBaseIO
    match written with
    | .ok () => return
    | .error _ => return

/-- Contents staged next to a path and moved over it. -/
def writeFile (filter : Log.Filter) (path : Path) (contents : String) : EIO WriteError Unit := do
  let name := stagingName (← IO.rand 0 999999)
  let directory := path.stagingDirectory
  let current ← attempt IO.currentDir (.create directory ⟨name⟩)
  let staging := path.stagingPath ⟨bytesOf current.toString⟩ name
  let handle ← attempt (IO.FS.Handle.mk staging.display .writeNew) (.create directory staging)
  report filter (stagedEvent contents.utf8ByteSize staging)
  try
    attempt (handle.putStr contents) (.write path staging)
    attempt handle.flush (.sync path)
    attempt (IO.setAccessRights staging.display
      ⟨⟨true, true, false⟩, ⟨true, false, false⟩, ⟨true, false, false⟩⟩) (.setMode path)
    attempt (IO.FS.rename staging.display path.display) (.save path)
  catch e =>
    match ← (IO.FS.removeFile staging.display).toBaseIO with
    | _ => throw e
  report filter (wroteEvent path)

/-- An artifact announced and brought to its destination. -/
def writeArtifact (filter : Log.Filter) (a : Artifact) (destination : Destination) :
    EIO DeliveryError Unit := do
  report filter (a.announcement destination)
  let text := a.text .ofCurve
  match destination with
  | .file path => (writeFile filter path text).adapt .file
  | .stdout =>
    let out ← IO.getStdout
    attempt (out.putStr text) .stdoutWrite
    attempt out.flush .stdoutFlush

/-- The artifacts brought to two destinations, the header first. -/
def writeArtifacts (filter : Log.Filter) (source header : Destination) :
    EIO DeliveryError Unit := do
  if let some refusal := refusal? source header then throw refusal
  report filter (tablesEvent .ofCurve)
  writeArtifact filter .header header
  writeArtifact filter .source source
  report filter (summaryEvent .ofCurve)

/-- The exit code of an invocation, after all its work. -/
def runProgram (arguments : List String) : IO UInt32 := do
  match CommandLine.parse (arguments.map bytesOf) with
  | .error (.usage error) =>
    IO.eprint error.text
    return 2
  | .error .shortHelp => showText CommandLine.shortHelp
  | .error .longHelp => showText CommandLine.longHelp
  | .error .version => showText CommandLine.versionText
  | .ok options =>
    let text ← IO.getEnv "RUST_LOG"
    match logFilterFor Log.Filter.read (text.map bytesOf) options.verbosity with
    | none => return 101
    | some filter =>
      match ← (writeArtifacts filter options.source options.header).toBaseIO with
      | .ok () => return 0
      | .error e =>
        IO.eprint e.report
        return 1
where
  /-- A text on standard output, and the exit code after it. -/
  showText (text : String) : IO UInt32 := do
    match ← (IO.print text).toBaseIO with
    | .ok () => return 0
    | .error _ => return 0

end LinearLight

def main (arguments : List String) : IO UInt32 := LinearLight.runProgram arguments
