import LinearLight.FileTree.Operations

/-!
# Arranging a tree

Calls that bring a tree into a wanted state: make directories, files with given data and
permissions, links of both kinds, and take entries away. A call that fails may have made some of the
directories that it was asked for.

## Main definitions

- `FileTree.bare`, `FileTree.enter`: a tree to start from, and the current directory chosen
- `Arrangement`: a call
- `FileTree.arrange`: its result and the tree after it
-/

namespace LinearLight

namespace FileTree

/-- The tree that holds an empty root directory, which is current. -/
def bare : FileTree := ⟨[(0, .directory 0 [])], 0, 0, ⟨[Path.slash]⟩⟩

/-- The tree with another directory current, reached by an absolute path. -/
def enter (t : FileTree) (p : Path) : Except Errno FileTree := do
  let directory ← t.resolveDirectory p
  return { t with current := directory, currentPath := p }

/-- The node that a path names. A link at its end is followed only if slashes come behind it. -/
def lookup (t : FileTree) (p : Path) : Except Errno NodeId := do
  let location ← t.locate p
  match location.last, location.slash with
  | .name name, false =>
    if nameLimit < name.length then throw .nameTooLong
    else
      match t.entry? location.directory name with
      | some id => return id
      | none => throw .noSuchEntry
  | _, _ =>
    match ← t.follow false p with
    | .node id => return id
    | .absent .. => throw .noSuchEntry

/-- The place where a path asks for a new entry. Only a directory may be asked for with a slash at
the end. -/
def vacancy (t : FileTree) (p : Path) (forDirectory : Bool) : Except Errno (NodeId × Name) := do
  let location ← t.locate p
  match location.last with
  | .name name =>
    if nameLimit < name.length then throw .nameTooLong
    else if (t.entry? location.directory name).isSome then throw .alreadyExists
    else if location.slash && !forDirectory then throw .noSuchEntry
    else return (location.directory, name)
  | _ => throw .alreadyExists

def makeDirectory (t : FileTree) (p : Path) : Except Errno FileTree := do
  let (directory, name) ← t.vacancy p true
  return t.place directory name (.directory directory [])

def leadsToDirectory (t : FileTree) (p : Path) : Bool :=
  match t.follow false p with
  | .ok (.node id) => t.isDirectory id
  | _ => false

/-- The tree with a directory where a path asks for one, unless it leads to one already. -/
def ensureDirectory (t : FileTree) (p : Path) : Except Errno FileTree :=
  match t.makeDirectory p with
  | .ok t => .ok t
  | .error e => if t.leadsToDirectory p then .ok t else .error e

/-- The result of a call that changes the tree only if it succeeds. -/
def settled {ε : Type} (t : FileTree) : Except ε FileTree → Except ε Unit × FileTree
  | .ok t => (.ok (), t)
  | .error e => (.error e, t)

/-- A directory made, and those above it up to a number of levels as far as they are missing. -/
def makeDirectoriesUpTo (t : FileTree) (levels : Nat) (p : Path) : Except Errno Unit × FileTree :=
  if p.isEmpty then (.ok (), t)
  else
    match t.ensureDirectory p, levels, p.parent? with
    -- something above is missing; it is made first, and then this is tried once more
    | .error .noSuchEntry, levels + 1, some parent =>
      match t.makeDirectoriesUpTo levels parent with
      | (.ok (), t) => t.settled (t.ensureDirectory p)
      | failed => failed
    | result, _, _ => t.settled result

/-- A directory made, and those above it. -/
def makeDirectories (t : FileTree) (p : Path) : Except Errno Unit × FileTree :=
  t.makeDirectoriesUpTo p.bytes.length p

/-- The tree with a file that has given data and permission bits; links are followed. -/
def putFile (t : FileTree) (p : Path) (data : Bytes) (mode : Nat) : Except Errno FileTree := do
  match ← t.openFile p .create with
  | (t, .file id position) =>
    let t := (Handle.file id position).store data t
    return t.modifyFile id fun f => { f with mode := mode }
  -- nothing to write is nothing refused
  | (t, .device) => if data.isEmpty then return t else throw .noSpace
  | (_, .readOnly) => throw .badDescriptor

/-- The tree with a device that is always full. -/
def makeFullDevice (t : FileTree) (p : Path) : Except Errno FileTree := do
  let (directory, name) ← t.vacancy p false
  return t.place directory name .fullDevice

def makeLink (t : FileTree) (p target : Path) : Except Errno FileTree := do
  checkPath target
  let (directory, name) ← t.vacancy p false
  return t.place directory name (.link target)

/-- The tree with another name for what a path names, which must be neither a directory nor a
device. -/
def makeHardLink (t : FileTree) (p existing : Path) : Except Errno FileTree := do
  let id ← t.lookup existing
  let (directory, name) ← t.vacancy p false
  match t.node? id with
  | some .fullDevice => throw .crossDevice
  | some (.directory ..) => throw .operationNotPermitted
  | _ => return t.setEntry directory name id

/-- The tree without the entry that a path names, and without all that lies below it. -/
def delete (t : FileTree) (p : Path) : Except Errno FileTree := do
  let id ← t.lookup p
  let location ← t.locate p
  match location.last with
  | .name name =>
    if t.entry? location.directory name = some id then
      return t.removeEntry location.directory name
    else throw .notADirectory
  | .dot => throw .invalidArgument
  | _ => throw .busy

end FileTree

/-- A call that arranges a tree. -/
inductive Arrangement where
  | makeDirectories (path : Path)
  | putFile (path : Path) (data : Bytes) (mode : Nat)
  | makeLink (path target : Path)
  | makeHardLink (path existing : Path)
  | delete (path : Path)

def Arrangement.paths : Arrangement → List Path
  | makeDirectories path => [path]
  | putFile path _ _ => [path]
  | makeLink path target => [path, target]
  | makeHardLink path existing => [path, existing]
  | delete path => [path]

namespace FileTree

/-- What the system makes of a call. -/
def arranged (t : FileTree) : Arrangement → Except Errno Unit × FileTree
  | .makeDirectories path => t.makeDirectories path
  | .putFile path data mode => t.settled (t.putFile path data mode)
  | .makeLink path target => t.settled (t.makeLink path target)
  | .makeHardLink path existing => t.settled (t.makeHardLink path existing)
  | .delete path => t.settled (t.delete path)

/-- The result of a call and the tree after it. The system is not asked about a path that it has no
form for. -/
def arrange (t : FileTree) (a : Arrangement) : Except IoError Unit × FileTree :=
  if a.paths.any Path.hasZeroByte then (.error .zeroByteInPath, t)
  else
    let (result, t) := t.arranged a
    (result.mapError .system, t)

end FileTree

end LinearLight
