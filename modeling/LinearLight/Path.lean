import LinearLight.Split
import LinearLight.Text.Utf8

/-!
# Paths

A path is any sequence of bytes. Slashes cut it into segments; empty segments and dots mean nothing
in most places, and what is left are the components. Nothing is looked up here: two dots are a
component like any other.

## Main definitions

- `Path`: a path as written
- `Path.segments`: the parts between slashes
- `Path.components`: the parts that count when paths are compared
- `Path.parent?`: the path as written without its last component
- `Path.join`: a path taken relative to another one
-/

namespace LinearLight

/-- A path as written. -/
structure Path where
  bytes : Bytes
deriving DecidableEq

namespace Path

def slash : UInt8 := 0x2F

def dot : Bytes := [0x2E]

def dotDot : Bytes := [0x2E, 0x2E]

/-- The parts of a path between its slashes. -/
def segments (p : Path) : List Bytes := split slash p.bytes

def isEmpty (p : Path) : Bool := p.bytes.isEmpty

def isAbsolute (p : Path) : Bool := p.bytes.head? = some slash

/-- Whether a path has a zero byte in it. No file can be named by such a path. -/
def hasZeroByte (p : Path) : Bool := p.bytes.contains 0

def display (p : Path) : String := Text.lossy p.bytes

/-- Whether a segment is empty or a dot, and so is left out between others. -/
def isBlank (segment : Bytes) : Bool := segment.isEmpty || segment = dot

/-- What a path starts with. -/
inductive Head where
  | root
  /-- A dot that is the whole of the first segment. -/
  | here
  /-- A name, two dots, or nothing at all. -/
  | plain
deriving DecidableEq

def head (p : Path) : Head :=
  match p.segments with
  | [] => .plain
  | first :: more =>
    if first = dot then .here
    else if first.isEmpty && !more.isEmpty then .root
    else .plain

/-- The segments after the head. -/
def body (p : Path) : List Bytes :=
  match p.head with
  | .plain => p.segments
  | _ => p.segments.tail

/-- What counts of a path when it is compared: its head, and the segments that are not blank. -/
structure Components where
  head : Head
  names : List Bytes
deriving DecidableEq

def components (p : Path) : Components := ⟨p.head, p.body.filter (!isBlank ·)⟩

/-- Segments without the blank ones at their end. -/
def dropBlanks (segments : List Bytes) : List Bytes :=
  (segments.reverse.dropWhile isBlank).reverse

/-- A head and the segments after it, as a path. -/
def ofBody (head : Head) (body : List Bytes) : Path :=
  match head with
  | .plain => ⟨unsplit slash body⟩
  | .root => ⟨slash :: unsplit slash body⟩
  | .here => ⟨unsplit slash (dot :: body)⟩

/-- The path without its last component and the slashes and dots around it, the rest as written.
A leading dot is a component too. The root and the empty path have no parent. -/
def parent? (p : Path) : Option Path :=
  match p.head, dropBlanks p.body with
  | .root, [] => none
  | .plain, [] => none
  | .here, [] => some ⟨[]⟩
  | head, body => some (ofBody head (dropBlanks body.dropLast))

/-- A path taken relative to another one: an absolute path stands for itself. -/
def join (base p : Path) : Path :=
  if p.isAbsolute then p
  else if base.bytes.getLast? = some slash || base.isEmpty then ⟨base.bytes ++ p.bytes⟩
  else ⟨base.bytes ++ slash :: p.bytes⟩

end Path

end LinearLight
