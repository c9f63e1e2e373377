import LinearLight.Path
import LinearLight.SystemError

/-!
# File trees

A tree is a store of nodes under numbers. A directory names its entries and knows the directory it
lies in; two entries that name one file are hard links to it. A link holds the path it stands for.
One directory is current, and relative paths start there.

## Main definitions

- `File`, `Node`, `FileTree`
- `FileTree.node?`, `FileTree.entry?`: what a number and a name stand for
- `FileTree.add`, `FileTree.remove`, `FileTree.modifyFile`: changes to nodes
- `FileTree.setEntry`, `FileTree.removeEntry`: changes to directories
-/

namespace LinearLight

abbrev Name := Bytes

abbrev NodeId := Nat

structure File where
  data : Bytes
  mode : Nat
  /-- Whether the data is known to have reached the disk. -/
  synced : Bool := false
deriving DecidableEq

/-- What a tree holds under a number. -/
inductive Node where
  | directory (parent : NodeId) (entries : List (Name × NodeId))
  | file (file : File)
  | link (target : Path)
  /-- A device on which every write finds no space. -/
  | fullDevice
deriving DecidableEq

def Node.isDirectory : Node → Bool
  | directory .. => true
  | _ => false

/-- A store of nodes with a root, and a current directory with its absolute path. -/
structure FileTree where
  nodes : List (NodeId × Node)
  root : NodeId
  current : NodeId
  currentPath : Path
deriving DecidableEq

/-- The entries with one name set, in place if it is there and at the end if not. -/
def assign (name : Name) (id : NodeId) : List (Name × NodeId) → List (Name × NodeId)
  | [] => [(name, id)]
  | entry :: rest => if entry.1 = name then (name, id) :: rest else entry :: assign name id rest

namespace FileTree

def node? (t : FileTree) (id : NodeId) : Option Node := t.nodes.lookup id

/-- The number of the parent and the entries, for a number that is a directory's. -/
def directory? (t : FileTree) (id : NodeId) : Option (NodeId × List (Name × NodeId)) :=
  match t.node? id with
  | some (.directory parent entries) => some (parent, entries)
  | _ => none

def isDirectory (t : FileTree) (id : NodeId) : Bool := (t.directory? id).isSome

/-- The number that a name stands for in a directory. -/
def entry? (t : FileTree) (directory : NodeId) (name : Name) : Option NodeId :=
  match t.directory? directory with
  | some (_, entries) => entries.lookup name
  | none => none

def file? (t : FileTree) (id : NodeId) : Option File :=
  match t.node? id with
  | some (.file f) => some f
  | _ => none

/-- A number larger than all in use. -/
def fresh (t : FileTree) : NodeId := t.nodes.foldr (fun entry n => max (entry.1 + 1) n) 0

/-- The tree with a node under the next number; no directory names it yet. -/
def add (t : FileTree) (node : Node) : FileTree := { t with nodes := t.nodes ++ [(t.fresh, node)] }

def remove (t : FileTree) (id : NodeId) : FileTree :=
  { t with nodes := t.nodes.filter (·.1 ≠ id) }

def modify (t : FileTree) (id : NodeId) (change : Node → Node) : FileTree :=
  { t with nodes := t.nodes.map fun entry => if entry.1 = id then (id, change entry.2) else entry }

def modifyFile (t : FileTree) (id : NodeId) (change : File → File) : FileTree :=
  t.modify id fun
    | .file f => .file (change f)
    | other => other

def modifyEntries (t : FileTree) (directory : NodeId)
    (change : List (Name × NodeId) → List (Name × NodeId)) : FileTree :=
  t.modify directory fun
    | .directory parent entries => .directory parent (change entries)
    | other => other

/-- The tree in which a directory gives a name to a node, in place of what it named so before. -/
def setEntry (t : FileTree) (directory : NodeId) (name : Name) (id : NodeId) : FileTree :=
  t.modifyEntries directory (assign name id)

/-- The tree in which a directory has no entry with a name. -/
def removeEntry (t : FileTree) (directory : NodeId) (name : Name) : FileTree :=
  t.modifyEntries directory (·.filter (·.1 ≠ name))

def place (t : FileTree) (directory : NodeId) (name : Name) (node : Node) : FileTree :=
  (t.add node).setEntry directory name t.fresh

end FileTree

end LinearLight
