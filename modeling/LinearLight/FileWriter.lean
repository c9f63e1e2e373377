import LinearLight.FileTree.Operations

/-!
# Writing into an opened file

Here a text goes straight into the file that a path leads to, links followed, as a sink like any
other. What was there is emptied, kept or overwritten as the way of opening says.

## Main definitions

- `Handle.receive`: a text written to a handle
- `FileTree.writeThrough`: a file opened and a text written to it
-/

namespace LinearLight

/-- A text written to a handle: what happened, and the tree after it. -/
def Handle.receive (h : Handle) (text : Bytes) (t : FileTree) : Transcript × FileTree :=
  let transcript := writeTo h.answers none text
  (transcript, h.store transcript.accepted t)

/-- A file opened and a text written to it: the result, and the tree after it. -/
def FileTree.writeThrough (t : FileTree) (p : Path) (access : Access) (text : Bytes) :
    Except IoError Unit × FileTree :=
  if p.hasZeroByte then (.error .zeroByteInPath, t)
  else
    match t.openFile p access with
    | .error e => (.error (.system e), t)
    | .ok (opened, handle) =>
      let (transcript, after) := handle.receive text opened
      (transcript.outcome, after)

end LinearLight
