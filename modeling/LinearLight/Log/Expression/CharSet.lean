import LinearLight.Log.Expression.Escaped
import LinearLight.Log.Expression.Nesting

/-!
# Sets in regular expressions

A set of characters stands in brackets. Its members are characters, ranges of them, kinds of
characters, named sets and sets in brackets again, and operators combine the members in front of
them with those behind. A set that begins with a caret is inverted.

Where characters are bytes, sets of ASCII characters only are admitted, so none is inverted. Where
the other case of any character is asked for, only sets without members are.

## Main definitions

- `Log.Bracket`: a set being read
- `Log.Piece`: the pieces of sets
- `Log.afterSet?`: how deep a set is nested, and the text behind it
-/

namespace LinearLight.Log

/-- The names of sets of ASCII characters. -/
def namedSets : List String :=
  ["alnum", "alpha", "ascii", "blank", "cntrl", "digit", "graph", "lower", "print", "punct",
    "space", "upper", "word", "xdigit"]

/-- If the text behind an opening bracket starts with a named set: whether the set is inverted, and
the text behind it. -/
def namedSet? : List Char → Option (Bool × List Char)
  | ':' :: rest =>
    let inverted := decide (rest.head? = some '^')
    match (if inverted then rest.tail else rest).span (· ≠ ':') with
    | (name, ':' :: ']' :: after) =>
      if namedSets.contains (String.ofList name) then some (inverted, after) else none
    | _ => none
  | _ => none

/-- One character of a set, or a kind of them, and the text behind it. -/
def member? (m : Mode) (text : List Char) : Option (Escaped × List Char) := do
  let (member, rest) ←
    match text with
    | [] => none
    | '\\' :: rest => escaped? m rest
    | c :: rest => some (.char c.toNat, rest)
  match member with
  | .place => none
  | .kind => some (member, rest)
  | .char code => if m.bytewise && decide (0x80 ≤ code) then none else some (member, rest)

/-- The text behind a character of a set, a kind of them or a range. A dash before another dash or
before the end of the set makes no range. -/
def afterMember? (m : Mode) (text : List Char) : Option (List Char) := do
  let (first, rest) ← member? m text
  match m.skip rest with
  | '-' :: rest =>
    let sign := m.behindDash? rest
    if sign = some ']' || sign = some '-' then some ('-' :: rest)
    else
      match first, ← member? m (m.skip rest) with
      | .char first, (.char last, rest) => if first ≤ last then some rest else none
      | _, _ => none
  | rest => some rest

structure Bracket where
  /-- Whether anything but dashes has been read. -/
  begun : Bool := false
  /-- How deep what stands in front of the last operator is nested. -/
  left : Option Nat := none
  /-- How deep the members behind that are nested. -/
  members : List Nat := []
deriving DecidableEq

namespace Bracket

def depth (b : Bracket) : Nat :=
  match b.left with
  | none => joined b.members
  | some left => joined [left, joined b.members]

def add (b : Bracket) (depth : Nat) : Bracket :=
  { b with begun := true, members := depth :: b.members }

end Bracket

inductive Piece where
  /-- A dash at the beginning, where it is a member. -/
  | dash
  | member
  | operator
  | opening
  | closing
deriving DecidableEq

/-- The opening of a set, and the text behind it, from the text behind the bracket. -/
def opening? (m : Mode) (text : List Char) : Option (Piece × List Char) :=
  match m.skip text with
  | '^' :: rest => if m.bytewise then none else some (.opening, rest)
  | rest => some (.opening, rest)

/-- The next piece of a set, and the text behind it. A closing bracket at the beginning is a
member. -/
def piece? (m : Mode) (b : Bracket) (text : List Char) : Option (Piece × List Char) :=
  match m.skip text with
  | [] => none
  | c :: rest =>
    if c = '-' && !b.begun then some (.dash, rest)
    else if c = ']' then
      -- dashes at the beginning count here, though they begin nothing
      some (if b.begun || !b.members.isEmpty then .closing else .member, rest)
    else if c = '[' then
      match namedSet? rest with
      | some (inverted, rest) => if inverted && m.bytewise then none else some (.member, rest)
      | none => opening? m rest
    else if (c = '&' || c = '-' || c = '~') && rest.head? = some c then some (.operator, rest.tail)
    else (afterMember? m (c :: rest)).map fun rest => (.member, rest)

/-- How deep a set is nested, from what has been read of it and of the sets that it is in, and the
text behind them all. -/
def afterSet? (m : Mode) :
    (fuel : Nat) → Bracket → List Bracket → List Char → Option (Nat × List Char)
  | 0, _, _, _ => none
  | fuel + 1, b, outer, text => do
    match ← piece? m b text with
    | (.dash, rest) =>
      if m.foldsAll then none
      else afterSet? m fuel { b with members := 0 :: b.members } outer rest
    | (.member, rest) => if m.foldsAll then none else afterSet? m fuel (b.add 0) outer rest
    | (.operator, rest) =>
      afterSet? m fuel { begun := true, left := some b.depth, members := [] } outer rest
    | (.opening, rest) => afterSet? m fuel {} (b :: outer) rest
    | (.closing, rest) =>
      match outer with
      | [] => some (b.depth + 1, rest)
      -- a set that is closed is a member of the one around it
      | parent :: outer => afterSet? m fuel (parent.add (b.depth + 1)) outer rest

/-- How deep a set is nested, and the text behind it, from the text behind its bracket. Every piece
takes a character at least. -/
def set? (m : Mode) (text : List Char) : Option (Nat × List Char) := do
  let (_, rest) ← opening? m text
  afterSet? m (rest.length + 1) {} [] rest

end LinearLight.Log
