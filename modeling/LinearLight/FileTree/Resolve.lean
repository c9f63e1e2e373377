import LinearLight.FileTree.Basic

/-!
# What paths lead to

A path is followed from the root or from the current directory, segment by segment. Every segment
but the last has to lead to a directory, if need be through symbolic links, of which at most
`linkLimit` are followed for one path. What becomes of the last segment depends on the call.

## Main definitions

- `FileTree.walk`: the directory that segments lead to
- `FileTree.locate`: the directory and the last segment that a path names, links at the end not
  followed
- `FileTree.follow`: the node that a path leads to, or the place where one can be made, links at
  the end followed
-/

namespace LinearLight

/-- The most links followed for one path. -/
def linkLimit : Nat := 40

/-- The most bytes in the name of an entry. -/
def nameLimit : Nat := 255

/-- The most bytes in a path. -/
def pathLimit : Nat := 4095

namespace Path

/-- The segments that are not empty. -/
def names (p : Path) : List Name := p.segments.filter (!·.isEmpty)

def endsInSlash (p : Path) : Bool := p.bytes.getLast? = some slash

end Path

/-- The last segment of a path. -/
inductive Last where
  /-- The path is nothing but slashes. -/
  | root
  | dot
  | dotDot
  | name (name : Name)
deriving DecidableEq

/-- The last segment of a sequence of segments that are not empty. -/
def Last.ofNames (names : List Name) : Last :=
  match names.getLast? with
  | none => .root
  | some last =>
    if last = Path.dot then .dot else if last = Path.dotDot then .dotDot else .name last

/-- The directory in which a path ends, and how it ends there. -/
structure Location where
  directory : NodeId
  last : Last
  /-- Whether slashes follow the last segment. -/
  slash : Bool
deriving DecidableEq

namespace FileTree

/-- Where a path starts: at the root if it is absolute, else at a given directory. -/
def start (t : FileTree) (directory : NodeId) (p : Path) : NodeId :=
  if p.isAbsolute then t.root else directory

/-- The directory that segments lead to from a given one, and how many links may still be followed
after that. -/
def walk (t : FileTree) (links : Nat) (directory : NodeId) :
    (names : List Name) → Except Errno (NodeId × Nat)
  | [] => .ok (directory, links)
  | name :: rest =>
    match t.directory? directory with
    | none => .error .notADirectory
    | some (parent, entries) =>
      if name = Path.dot then t.walk links directory rest
      else if name = Path.dotDot then t.walk links parent rest
      else if nameLimit < name.length then .error .nameTooLong
      else
        match entries.lookup name with
        | none => .error .noSuchEntry
        | some id =>
          match t.node? id with
          | some (.directory ..) => t.walk links id rest
          | some (.link target) =>
            match links with
            | 0 => .error .tooManyLinks
            -- what the link says comes in front of what is left of the path
            | links + 1 => t.walk links (t.start directory target) (target.names ++ rest)
          | _ => .error .notADirectory
termination_by names => (links, names.length)

/-- The location that a path names, seen from a given directory, and how many links may still be
followed. -/
def locateFrom (t : FileTree) (links : Nat) (directory : NodeId) (p : Path) :
    Except Errno (Location × Nat) := do
  let names := p.names
  let (parent, left) ← t.walk links (t.start directory p) names.dropLast
  return (⟨parent, .ofNames names, p.endsInSlash⟩, left)

/-- A path that the system takes at all: not empty, without zero bytes, and not too long. -/
def checkPath (p : Path) : Except Errno Unit :=
  if p.isEmpty then .error .noSuchEntry
  else if p.hasZeroByte then .error .invalidArgument
  else if pathLimit < p.bytes.length then .error .nameTooLong
  else .ok ()

def locate (t : FileTree) (p : Path) : Except Errno Location := do
  checkPath p
  let (location, _) ← t.locateFrom linkLimit t.current p
  return location

def resolveDirectory (t : FileTree) (p : Path) : Except Errno NodeId := do
  checkPath p
  let (directory, _) ← t.walk linkLimit (t.start t.current p) p.names
  return directory

/-- What a path leads to when links at its end are followed. -/
inductive Target where
  | node (id : NodeId)
  /-- Nothing yet, in a directory where it could be made. -/
  | absent (directory : NodeId) (name : Name)
deriving DecidableEq

/-- What a path leads to from a directory, links at its end followed. A path that may make a file
must not end in a slash; a path that ends in one otherwise leads to a directory. -/
def followFrom (t : FileTree) (creating : Bool) (links : Nat) (directory : NodeId) (slash : Bool)
    (p : Path) : Except Errno Target :=
  match t.locateFrom links directory p with
  | .error e => .error e
  | .ok (location, left) =>
    match location.last with
    | .root => .ok (.node location.directory)
    | .dot => .ok (.node location.directory)
    | .dotDot =>
      match t.directory? location.directory with
      | some (parent, _) => .ok (.node parent)
      | none => .error .notADirectory
    | .name name =>
      -- a slash behind a link asks the same of where the link leads
      let slash := slash || location.slash
      if creating && slash then .error .isADirectory
      else if nameLimit < name.length then .error .nameTooLong
      else
        match t.entry? location.directory name with
        | none => .ok (.absent location.directory name)
        | some id =>
          match t.node? id with
          | some (.link target) =>
            match left with
            | 0 => .error .tooManyLinks
            | left + 1 =>
              -- always so: the links on the way have only been counted down
              if left < links then t.followFrom creating left location.directory slash target
              else .error .tooManyLinks
          | some (.directory ..) => .ok (.node id)
          | _ => if slash then .error .notADirectory else .ok (.node id)
termination_by links

def follow (t : FileTree) (creating : Bool) (p : Path) : Except Errno Target := do
  checkPath p
  t.followFrom creating linkLimit t.current false p

end FileTree

end LinearLight
