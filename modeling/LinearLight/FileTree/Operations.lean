import LinearLight.FileTree.Resolve
import LinearLight.Sink

/-!
# Calls on a file tree

The calls that writing needs: make a file that must not exist yet, move it over another entry, and
open a file in one of four ways. Each answers with a failure or with the tree that results.

## Main definitions

- `FileTree.createExclusive`, `FileTree.rename`
- `Access`, `Handle`, `FileTree.openFile`: files opened through links
- `Handle.answers`, `Handle.store`: how a handle takes what is written
-/

namespace LinearLight

namespace FileTree

/-- The tree with a new file under a name that must not be in use. -/
def createExclusive (t : FileTree) (directory : NodeId) (name : Name) (mode : Nat) :
    Except Errno FileTree :=
  match t.entry? directory name with
  | some _ => .error .alreadyExists
  | none => .ok (t.place directory name (.file ⟨[], mode, false⟩))

/-- The entry that a path names, for a file to be moved to: not a directory, and without a slash
behind it. What stands there already, a link included, is not looked into. -/
def renameTarget (t : FileTree) (target : Path) : Except Errno (NodeId × Name) := do
  let location ← t.locate target
  match location.last with
  | .name name =>
    if nameLimit < name.length then throw .nameTooLong
    else if location.slash then throw .notADirectory
    else
      match t.entry? location.directory name with
      | some id =>
        if t.isDirectory id then throw .isADirectory else return (location.directory, name)
      | none => return (location.directory, name)
  -- the root, a dot and two dots are no names that can be given
  | _ => throw .busy

/-- The tree with an entry moved over the one that a path names. Nothing is done if the two stand
for one node already. -/
def rename (t : FileTree) (directory : NodeId) (name : Name) (id : NodeId) (target : Path) :
    Except Errno FileTree := do
  let (toDirectory, toName) ← t.renameTarget target
  if t.entry? toDirectory toName = some id then return t
  else return (t.setEntry toDirectory toName id).removeEntry directory name

end FileTree

/-- How a file is opened. -/
inductive Access where
  /-- For writing, emptied; made if it is missing. -/
  | create
  /-- For writing at the end. -/
  | append
  /-- For writing from the start over what is there. -/
  | overwrite
  | read
deriving DecidableEq

/-- An opened file, or what else a path led to. -/
inductive Handle where
  /-- A file with a position to write at. -/
  | file (id : NodeId) (position : Nat)
  | device
  | readOnly
deriving DecidableEq

def ownerRead : Nat := 0o400

def ownerWrite : Nat := 0o200

def allows (mode bit : Nat) : Bool := mode / bit % 2 = 1

/-- The permission bits of a file made by opening it. -/
def defaultMode : Nat := 0o644

namespace FileTree

/-- A file that exists, opened. -/
def openNode (t : FileTree) (id : NodeId) (access : Access) : Except Errno (FileTree × Handle) :=
  match t.node? id, access with
  | some (.file f), .read =>
    if allows f.mode ownerRead then .ok (t, .readOnly) else .error .permissionDenied
  | some (.file f), access =>
    if !allows f.mode ownerWrite then .error .permissionDenied
    else
      match access with
      -- emptied, but still the file that other names stand for
      | .create => .ok (t.modifyFile id fun f => { f with data := [], synced := false }, .file id 0)
      | .append => .ok (t, .file id f.data.length)
      | _ => .ok (t, .file id 0)
  | some .fullDevice, .read => .ok (t, .readOnly)
  | some .fullDevice, _ => .ok (t, .device)
  | some (.directory ..), .read => .ok (t, .readOnly)
  | some (.directory ..), _ => .error .isADirectory
  | _, _ => .error .noSuchEntry

/-- The file that a path leads to, opened, and the tree after that. -/
def openFile (t : FileTree) (p : Path) (access : Access) : Except Errno (FileTree × Handle) := do
  match ← t.follow (access = .create) p with
  | .node id => t.openNode id access
  | .absent directory name =>
    if access = .create then
      return (t.place directory name (.file ⟨[], defaultMode, false⟩), .file t.fresh 0)
    else throw .noSuchEntry

end FileTree

namespace Handle

/-- How a handle answers to what is written to it. -/
def answers : Handle → List WriteAnswer
  | file .. => []
  | device => [.fail (.system .noSpace)]
  | readOnly => [.fail (.system .badDescriptor)]

/-- The tree after bytes have been accepted by a handle. -/
def store (h : Handle) (bytes : Bytes) (t : FileTree) : FileTree :=
  match h with
  | file id position =>
    t.modifyFile id fun f =>
      { f with
        -- what reaches beyond the old end makes the file longer
        data := f.data.take position ++ bytes ++ f.data.drop (position + bytes.length)
        synced := false }
  | _ => t

end Handle

end LinearLight
