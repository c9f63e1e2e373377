import LinearLight.Decimal.Digits
import LinearLight.Log
import LinearLight.Log.Pattern
import LinearLight.Split
import LinearLight.Text.Alphanumeric
import LinearLight.Text.Blank
import LinearLight.Text.Utf8

/-!
# Filters written as text

A filter's text is a list of directives between commas. A directive is a level, which limits all
targets, or a target, or a target with a level after an equals sign. Behind the target, or in place
of it, brackets may name a span and, in braces, a field, with or without a value that it should
have. No event here happens in a span, and none has a field with a value to compare, so directives
that ask for either limit nothing.

Blanks around a directive are passed over when it is read; but its parts are then cut out of the
text as written, at the places where they would be without the blanks in front. A place that is
inside of a character there brings the program down.

## Main definitions

- `Log.Directive`: one directive
- `Log.Draft`: a directive being read
- `Log.Directive.read`: the directive that a text stands for
- `Log.Filter.read`: the filter that a text stands for
-/

namespace LinearLight.Log

/-- The names of the limits, by rank from 0 on. -/
def rankNames : List String := ["off", "error", "warn", "info", "debug", "trace"]

/-- The rank that a text names: a word in any case, or its number, which may have a plus sign and
leading zeros. -/
def rank? (text : Bytes) : Option Nat :=
  let chars := text.map fun b => Char.ofNat b.toNat
  let digits := if chars.head? = some '+' then chars.tail else chars
  match Decimal.valueOf? digits with
  | some n => if n < rankNames.length then some n else none
  | none => rankNames.findIdx? (·.toList = chars.map Char.toLower)

/-- A field that a directive asks for. -/
structure Field where
  name : Bytes
  /-- Whether the field is to have a value. -/
  valued : Bool
deriving DecidableEq

/-- The byte between a field's name and its value, and between a target and its level. -/
def equalsSign : UInt8 := 0x3D

/-- The field that a text asks for: its name and, after an equals sign, its value. A second equals
sign ends the value. -/
def Field.ofText? (text : Bytes) : Option Field :=
  match split equalsSign text with
  | name :: value :: _ => do
    if isPattern (← Text.decoded? value).toList then some ⟨name, true⟩ else none
  | _ => if text.isEmpty then none else some ⟨text, false⟩

structure Directive where
  target : Bytes := []
  /-- Whether a span is named. -/
  spanned : Bool := false
  field : Option Field := none
  rank : Nat := Level.trace.rank
deriving DecidableEq

/-- The part of a directive that is being read, and where it began. -/
inductive Place where
  | start
  | target
  | span (first : Nat)
  | field (first : Nat)
  | fieldEnd
  | spanEnd
  | level (first : Nat)
deriving DecidableEq

/-- A directive being read. -/
structure Draft where
  place : Place := .start
  directive : Directive := {}
deriving DecidableEq

def startsTarget (c : Char) : Bool := c = '-' || c = ':' || c = '_' || Text.isAlphanumeric c

/-- Whether a place in a text is not inside of a character. -/
def isBoundary (text : Bytes) (i : Nat) : Bool :=
  match text[i]? with
  | some b => b < 0x80 || 0xC0 ≤ b
  | none => true

/-- The part of a text between two places. -/
def part (text : Bytes) (first last : Nat) : Except Fault Bytes :=
  if isBoundary text first && isBoundary text last then .ok ((text.take last).drop first)
  else .error .crash

/-- What there is, or else the fault of a malformed text. -/
def orMalformed {α : Type} : Option α → Except Fault α
  | some a => .ok a
  | none => .error .malformed

namespace Draft

/-- A draft after the character at a place. -/
def next (text : Bytes) (d : Draft) (i : Nat) (c : Char) : Except Fault Draft :=
  -- places are counted without the blanks in front, but cut from the text with them
  match d.place with
  | .start =>
    if c = '[' then .ok { d with place := .span (i + 1) }
    else if startsTarget c then .ok { d with place := .target }
    else .error .malformed
  | .target =>
    if c = '=' || c = '[' then do
      let target ← part text 0 i
      let place := if c = '=' then Place.level (i + 1) else .span (i + 1)
      return ⟨place, { d.directive with target := target }⟩
    else .ok d
  | .span first =>
    if c = ']' then do
      -- the name is cut out, but only that there is one counts
      let _ ← part text first i
      return ⟨.spanEnd, { d.directive with spanned := true }⟩
    else if c = '\x7b' then do
      -- brackets may hold a field without the name of a span
      let name ← part text first i
      return ⟨.field (i + 1), { d.directive with spanned := !name.isEmpty }⟩
    else .ok d
  | .field first =>
    if c = '\x7d' then do
      let field ← orMalformed (Field.ofText? (← part text first i))
      return ⟨.fieldEnd, { d.directive with field := some field }⟩
    else .ok d
  | .fieldEnd => if c = ']' then .ok { d with place := .spanEnd } else .error .malformed
  | .spanEnd => if c = '=' then .ok { d with place := .level (i + 1) } else .error .malformed
  | .level _ => .ok d

/-- A draft after characters, the first of which is at a place. -/
def read (text : Bytes) (d : Draft) : (i : Nat) → List Char → Except Fault Draft
  | _, [] => .ok d
  | i, c :: rest => do
    let d ← d.next text i c
    d.read text (i + c.utf8Size) rest

/-- The directive of a draft that has come to the end of the text. An empty level admits all. -/
def finish (text : Bytes) (d : Draft) : Except Fault Directive :=
  match d.place with
  | .target =>
    match rank? text with
    | some rank => .ok { d.directive with rank := rank }
    | none => .ok { d.directive with target := text }
  | .spanEnd => .ok d.directive
  | .level first => do
    match ← part text first text.length with
    | [] => return d.directive
    | level =>
      let rank ← orMalformed (rank? level)
      return { d.directive with rank := rank }
  | _ => .error .malformed

end Draft

namespace Directive

/-- The directive that a text stands for. -/
def read (text : List Char) : Except Fault Directive := do
  let bytes := bytesOf (String.ofList text)
  let draft ← ({} : Draft).read bytes 0 (Text.trim text)
  draft.finish bytes

/-- The limit that a directive sets for events. -/
def limit? (d : Directive) : Option Limit :=
  if d.spanned || d.field.any (·.valued) then none
  else some ⟨d.target, d.field.map (·.name), d.rank⟩

end Directive

namespace Filter

/-- The texts between commas, without the empty ones. -/
def items (text : List Char) : List (List Char) := (split ',' text).filter (!·.isEmpty)

/-- The filter that a text stands for. Without directives it admits errors only; the first of them
that is at fault spoils the whole. -/
def read : Reader := fun bytes => do
  let text ← orMalformed (Text.decoded? bytes)
  match items text.toList with
  | [] => return all Level.error.rank
  | items =>
    let directives ← items.mapM Directive.read
    return ⟨directives.filterMap Directive.limit?⟩

end Filter

end LinearLight.Log
