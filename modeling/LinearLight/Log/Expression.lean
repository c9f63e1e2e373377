import LinearLight.Log.Expression.CharSet
import LinearLight.Text.Alphabetic

/-!
# Regular expressions

Which texts are regular expressions. Those forms are refused that need to know about characters
beyond ASCII (kinds of characters, word boundaries, letters in either case), unless characters are
declared to be bytes, and then those that would match half a character. Counted repetitions and
looks ahead or behind are refused too. So are expressions that are nested too deep; of what has been
read, nothing but its depth is kept.

## Main definitions

- `Log.Branches`: what is read of an expression between two parentheses
- `Log.Expression`: an expression being read
- `Log.isExpression`: whether a text is an expression
-/

namespace LinearLight.Log

/-- A part of an expression. -/
inductive Part where
  /-- Flags, which cannot be repeated. -/
  | flags
  /-- Any other part, nested so deep. -/
  | nested (depth : Nat)
deriving DecidableEq

def Part.depth : Part → Nat
  | .flags => 0
  | .nested depth => depth

/-- What is read of an expression between two parentheses: branches with bars between them. -/
structure Branches where
  /-- How deep the branches before the last bar are nested. -/
  before : List Nat := []
  /-- The parts of the branch at hand, the last one first. -/
  parts : List Part := []
deriving DecidableEq

namespace Branches

/-- How deep the branch at hand is nested. -/
def branchDepth (b : Branches) : Nat := joined (b.parts.map Part.depth)

def depth (b : Branches) : Nat := joined (b.branchDepth :: b.before)

def add (b : Branches) (part : Part) : Branches := { b with parts := part :: b.parts }

/-- Branches with the last part repeated, if there is one that can be. -/
def repeated? (b : Branches) : Option Branches :=
  match b.parts with
  | .nested depth :: parts => some { b with parts := .nested (depth + 1) :: parts }
  | _ => none

def barred (b : Branches) : Branches := { before := b.branchDepth :: b.before }

end Branches

def isGroupName : List Char → Bool
  | [] => false
  | c :: rest =>
    (c = '_' || Text.isAlphabetic c) &&
      rest.all fun c => c = '_' || c = '.' || c = '[' || c = ']' || Text.isAlphanumeric c

/-- An expression being read. -/
structure Expression where
  mode : Mode := {}
  /-- What has been read of the innermost open group. -/
  inner : Branches := {}
  /-- The modes to return to behind the groups that are open, and what was read in front of them. -/
  outer : List (Mode × Branches) := []
  names : List (List Char) := []
deriving DecidableEq

namespace Expression

def add (e : Expression) (part : Part) : Expression := { e with inner := e.inner.add part }

/-- An expression in which a group has been opened, to be read in a mode. -/
def opened (e : Expression) (mode : Mode) : Expression :=
  { e with mode := mode, inner := {}, outer := (e.mode, e.inner) :: e.outer }

def closed? (e : Expression) : Option Expression :=
  match e.outer with
  | [] => none
  | (mode, inner) :: outer =>
    some { e with mode := mode, inner := inner.add (.nested (e.inner.depth + 1)), outer := outer }

/-- An expression in which a named group has been opened, and the text behind its name. -/
def named? (e : Expression) (text : List Char) : Option (Expression × List Char) :=
  match text.span (· ≠ '>') with
  | (name, _ :: rest) =>
    if isGroupName name && !e.names.contains name then
      some ({ e.opened e.mode with names := name :: e.names }, rest)
    else none
  | _ => none

/-- An expression after an opening parenthesis, and the text behind what belongs to it. -/
def group? (e : Expression) (text : List Char) : Option (Expression × List Char) :=
  match e.mode.skip text with
  | '?' :: '<' :: rest => e.named? rest
  | '?' :: 'P' :: '<' :: rest => e.named? rest
  | '?' :: rest => do
    let (mode, opens, rest) ← e.mode.flags? [] rest
    -- flags without a colon change the mode of the group at hand
    some (if opens then e.opened mode else { e.add .flags with mode := mode }, rest)
  | rest => some (e.opened e.mode, rest)

/-- An expression after one more character that stands for itself. -/
def literal? (e : Expression) : Option Expression :=
  if e.mode.foldsAll then none else some (e.add (.nested 0))

/-- An expression after the sign of a repetition, and the text behind it. -/
def repeated? (e : Expression) (rest : List Char) : Option (Expression × List Char) :=
  e.inner.repeated?.map fun inner =>
    ({ e with inner := inner }, if rest.head? = some '?' then rest.tail else rest)

/-- An expression after one more part or sign, of which the first character is given, and the text
behind it. -/
def next? (e : Expression) (c : Char) (rest : List Char) : Option (Expression × List Char) :=
  match c with
  | '(' => e.group? rest
  | ')' => e.closed?.map fun e => (e, rest)
  | '|' => some ({ e with inner := e.inner.barred }, rest)
  | '[' => (set? e.mode rest).map fun (depth, rest) => (e.add (.nested depth), rest)
  | '\x7b' => none
  | '*' => e.repeated? rest
  | '+' => e.repeated? rest
  | '?' => e.repeated? rest
  | '.' => if e.mode.bytewise then none else some (e.add (.nested 0), rest)
  | '^' => some (e.add (.nested 0), rest)
  | '$' => some (e.add (.nested 0), rest)
  | '\\' =>
    match escaped? e.mode rest with
    | none => none
    | some (.char _, rest) => e.literal?.map fun e => (e, rest)
    | some (_, rest) => some (e.add (.nested 0), rest)
  | _ => e.literal?.map fun e => (e, rest)

/-- Whether the rest of an expression is well formed. Every part takes a character at least. -/
def isWellFormed (e : Expression) : (fuel : Nat) → List Char → Bool
  | 0, _ => false
  | fuel + 1, text =>
    match e.mode.skip text with
    | [] => e.outer.isEmpty && decide (e.inner.depth ≤ deepest)
    | c :: rest =>
      match e.next? c rest with
      | some (e, rest) => e.isWellFormed fuel rest
      | none => false

end Expression

def isExpression (text : List Char) : Bool := ({} : Expression).isWellFormed (text.length + 1) text

end LinearLight.Log
