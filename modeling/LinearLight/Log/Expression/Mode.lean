import LinearLight.Text.Blank

/-!
# How a regular expression is read

Flags decide how the rest of a group is read: whether characters are bytes, whether letters stand
for both their cases, and whether blanks, and remarks from a number sign to the end of the line,
mean nothing.

## Main definitions

- `Log.Mode`: how an expression is read
- `Log.Mode.skip`: a text without what means nothing in front of it
- `Log.Mode.flags?`: the mode that flags lead to
-/

namespace LinearLight.Log

/-- How an expression is read. -/
structure Mode where
  /-- Blanks and remarks in it mean nothing. -/
  spaced : Bool := false
  /-- Letters stand for both their cases. -/
  caseless : Bool := false
  bytewise : Bool := false
deriving DecidableEq

namespace Mode

/-- Whether the other case of any character is asked for. -/
def foldsAll (m : Mode) : Bool := m.caseless && !m.bytewise

/-- The text behind blanks and remarks. It may begin inside a remark. -/
def afterBlanks : (remark : Bool) → List Char → List Char
  | _, [] => []
  | true, c :: rest => afterBlanks (c != '\n') rest
  | false, c :: rest =>
    if Text.isBlank c then afterBlanks false rest
    else if c = '#' then afterBlanks true rest
    else c :: rest

/-- A text without what means nothing in front of it. -/
def skip (m : Mode) (text : List Char) : List Char :=
  if m.spaced then afterBlanks false text else text

/-- The character that a dash in a set is read by, from the text behind the dash. Where blanks mean
nothing, the sign that opens a remark is passed over as well, but the remark is not. -/
def behindDash? (m : Mode) (text : List Char) : Option Char :=
  if m.spaced then
    match text.dropWhile Text.isBlank with
    | '#' :: remark => (remark.dropWhile Text.isBlank).head?
    | text => text.head?
  else text.head?

def set (m : Mode) (flag : Char) (on : Bool) : Mode :=
  if flag = 'x' then { m with spaced := on }
  else if flag = 'i' then { m with caseless := on }
  else if flag = 'u' then { m with bytewise := !on }
  else m

/-- The mode that flags lead to, whether they open a group, and the text behind them. No flag is
given twice, and a dash, behind which flags are taken back, is not the last of them. -/
def flags? (m : Mode) (seen : List Char) : List Char → Option (Mode × Bool × List Char)
  | [] => none
  | c :: rest =>
    if c = ':' || c = ')' then
      if seen.head? = some '-' || (c = ')' && seen.isEmpty) then none
      else some (m, c = ':', rest)
    else if seen.contains c || !"-imsuxRU".toList.contains c then none
    else flags? (m.set c (!seen.contains '-')) (c :: seen) rest

end Mode

end LinearLight.Log
