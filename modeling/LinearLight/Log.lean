import LinearLight.Bytes

/-!
# Logging

Events tell what the program does while it runs; a filter picks those that are written. A filter is
a list of limits. Of the limits that concern an event, the most special decides; an event that none
concerns is left out. What filter a text stands for is for a reader to say.

## Main definitions

- `Log.Level`, `Log.Event`, `Log.Limit`, `Log.Filter`
- `Log.Filter.admits`: whether an event is written
- `Log.Reader`: what makes filters of texts
- `Log.Event.line`: the line written for an event
-/

namespace LinearLight.Log

inductive Level where
  | error
  | warn
  | info
  | debug
  | trace
deriving DecidableEq

namespace Level

/-- Levels by their number, the gravest first. -/
def rank : Level → Nat
  | error => 1
  | warn => 2
  | info => 3
  | debug => 4
  | trace => 5

/-- The word for a level, as wide as the longest one. -/
def label : Level → String
  | error => "ERROR"
  | warn => " WARN"
  | info => " INFO"
  | debug => "DEBUG"
  | trace => "TRACE"

end Level

/-- Something that happened, reported under the name of the part of the program it happened in. -/
structure Event where
  level : Level
  target : String
  message : String
deriving DecidableEq

/-- The name of the one field that an event has. -/
def messageField : Bytes := bytesOf "message"

/-- The least grave rank admitted for the events that a limit concerns; 0 admits nothing. -/
structure Limit where
  /-- What their targets start with. -/
  target : Bytes
  /-- The field that they must have, if one is asked for. -/
  field : Option Bytes
  rank : Nat
deriving DecidableEq

namespace Limit

def concerns (l : Limit) (e : Event) : Bool :=
  l.target.isPrefixOf (bytesOf e.target) && (l.field = none || l.field = some messageField)

/-- How special a limit is. A longer target counts before a field. -/
def specificity (l : Limit) : Nat := 2 * l.target.length + (if l.field.isSome then 1 else 0)

end Limit

/-- Limits, in the order in which they were given. -/
structure Filter where
  limits : List Limit
deriving DecidableEq

namespace Filter

/-- The filter that admits the same for all targets. -/
def all (rank : Nat) : Filter := ⟨[⟨[], none, rank⟩]⟩

/-- The more special of two limits, or else the later. -/
def moreSpecific (best : Option Limit) (limit : Limit) : Option Limit :=
  match best with
  | none => some limit
  | some b => if b.specificity ≤ limit.specificity then some limit else some b

def limitFor? (f : Filter) (e : Event) : Option Limit :=
  (f.limits.filter (·.concerns e)).foldl moreSpecific none

def admits (f : Filter) (e : Event) : Bool :=
  match f.limitFor? e with
  | some limit => decide (e.level.rank ≤ limit.rank)
  | none => false

end Filter

/-- Why a text gives no filter. -/
inductive Fault where
  | malformed
  /-- Reading the text brings the program down. -/
  | crash
deriving DecidableEq

/-- What makes filters of texts. -/
abbrev Reader := Bytes → Except Fault Filter

/-- A reader comes back from a text, if there is one: it has a filter for it, or it says that the
text is malformed. Readers are documented to do one or the other with every text, and that is all
that the program relies on. -/
def Reader.Returns (read : Reader) : Option Bytes → Prop
  | none => True
  | some text => read text ≠ .error .crash

/-- A character of a message, made harmless to a terminal. -/
def shown (c : Char) : List Char :=
  if c = '\x1b' then "\\x1b".toList
  else if c = '\x07' then "\\x07".toList
  else if c = '\x08' then "\\x08".toList
  else if c = '\x0c' then "\\x0c".toList
  else if c = '\x7f' then "\\x7f".toList
  else if 0x80 ≤ c.toNat ∧ c.toNat ≤ 0x9f then
    "\\u\x7b".toList ++ Nat.toDigits 16 c.toNat ++ ['\x7d']
  else [c]

/-- The line written for an event at a time. -/
def Event.line (time : String) (e : Event) : String :=
  time ++ " " ++ e.level.label ++ " " ++ String.ofList (e.message.toList.flatMap shown) ++ "\n"

end LinearLight.Log
