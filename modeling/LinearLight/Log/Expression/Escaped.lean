import LinearLight.Log.Expression.Mode

/-!
# Escapes in regular expressions

A backslash takes its meaning from a sign, gives one to a letter, or begins a character's number.

## Main definitions

- `Log.Escaped`: what can be written with a backslash
- `Log.escaped?`: what the text behind a backslash stands for
-/

namespace LinearLight.Log

/-- What a backslash and the characters behind it stand for. -/
inductive Escaped where
  | char (code : Nat)
  | kind
  /-- A place between characters. -/
  | place
deriving DecidableEq

def hexDigit? (c : Char) : Option Nat :=
  let d := c.toLower
  if d.isDigit then some (d.toNat - '0'.toNat)
  else if 'a' ≤ d ∧ d ≤ 'f' then some (d.toNat - 'a'.toNat + 10)
  else none

/-- The number that so many hexadecimal digits continue, and the text behind them. -/
def hexDigits? (m : Mode) : (count : Nat) → (number : Nat) → List Char → Option (Nat × List Char)
  | 0, number, text => some (number, text)
  | count + 1, number, text =>
    match m.skip text with
    | [] => none
    | c :: rest => do hexDigits? m count (16 * number + (← hexDigit? c)) rest

/-- The character given by so many hexadecimal digits, and the text behind them. -/
def hexChar? (m : Mode) (count : Nat) (text : List Char) : Option (Nat × List Char) := do
  let (code, rest) ← hexDigits? m count 0 text
  if code.isValidChar then some (code, rest) else none

/-- The control characters that have a letter. -/
def lettered : List (Char × Nat) :=
  [('a', 0x07), ('f', 0x0C), ('t', 0x09), ('n', 0x0A), ('r', 0x0D), ('v', 0x0B)]

/-- What the text behind a backslash stands for, and the text behind that. A number of two digits is
a byte where characters are bytes, and there a byte of a longer character is refused. -/
def escaped? (m : Mode) : List Char → Option (Escaped × List Char)
  | [] => none
  | c :: rest =>
    if c = 'x' then do
      let (code, rest) ← hexChar? m 2 rest
      if m.bytewise && decide (0x80 ≤ code) then none else some (.char code, rest)
    else if c = 'u' then (hexChar? m 4 rest).map fun (code, rest) => (.char code, rest)
    else if c = 'U' then (hexChar? m 8 rest).map fun (code, rest) => (.char code, rest)
    else if c = 'A' || c = 'z' then some (.place, rest)
    else if c = 'b' || c = 'B' || c = '<' || c = '>' then
      if m.bytewise then some (.place, rest) else none
    else if c = 'd' || c = 's' || c = 'w' then if m.bytewise then some (.kind, rest) else none
    else
      match lettered.lookup c with
      | some code => some (.char code, rest)
      | none => if c.toNat < 0x80 ∧ !c.isAlphanum then some (.char c.toNat, rest) else none

end LinearLight.Log
