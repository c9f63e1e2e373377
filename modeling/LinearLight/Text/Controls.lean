import LinearLight.Text.Utf8

/-!
# Text without terminal controls

A terminal takes part of what it is sent as commands: control characters, and the sequences that
follow the escape character. The first bytes of such a sequence tell its form, and the form tells
where it ends. Here all of them are left out. White space is kept, even where it stands inside a
sequence; the sequence is then broken off, and what follows the white space is text again.

## Main definitions

- `Text.Sequence`: the form of the sequence being read
- `Text.withoutControls`: a text without controls
-/

namespace LinearLight.Text

/-- What of a sequence has been read. -/
inductive Sequence where
  | none
  | escape
  /-- An escape sequence up to the byte that names it. -/
  | intermediate
  /-- A control sequence up to the byte that names it. -/
  | control
  /-- The start of a device control string. -/
  | device
  /-- The same, with parameters. -/
  | deviceParameters
  /-- The same, up to the byte that names it. -/
  | deviceIntermediate
  /-- A string that a byte of its own ends. -/
  | string
  /-- A command to the system, which a bell ends. -/
  | command
deriving DecidableEq

def within (low high b : UInt8) : Bool := decide (low ≤ b) && decide (b ≤ high)

namespace Sequence

/-- What has been read after one more byte. Whatever the sequence, it is over with a byte that
cancels it, and the escape character starts another one. -/
def next (s : Sequence) (b : UInt8) : Sequence :=
  if b = 0x18 || b = 0x1A then none
  else if b = 0x1B then escape
  else
    match s with
    | none => none
    | escape =>
      if within 0x20 0x2F b then intermediate
      -- the brackets, the letter P, and the three signs before strings that mean nothing here
      else if b = 0x5B then control
      else if b = 0x5D then command
      else if b = 0x50 then device
      else if b = 0x58 || b = 0x5E || b = 0x5F then string
      else if within 0x30 0x7E b then none
      else escape
    | intermediate => if within 0x30 0x7E b then none else intermediate
    | control => if within 0x40 0x7E b then none else control
    | device =>
      if within 0x40 0x7E b then string
      else if within 0x20 0x2F b then deviceIntermediate
      else if within 0x30 0x3F b then deviceParameters
      else device
    | deviceParameters =>
      if within 0x3C 0x7E b then string
      else if within 0x20 0x2F b then deviceIntermediate
      else deviceParameters
    | deviceIntermediate => if within 0x30 0x7E b then string else deviceIntermediate
    | string => if b = 0x9C then none else string
    | command => if b = 0x07 then none else command

/-- The white space among the control characters. -/
def isSpacing (b : UInt8) : Bool := b = 0x09 || b = 0x0A || b = 0x0C || b = 0x0D

/-- Whether a byte starts something to be kept: outside a sequence any character that is no
control, and in the shorter forms of sequence white space. -/
def shows : Sequence → UInt8 → Bool
  | none, b => within 0x20 0x7E b || isSpacing b || within 0xC2 0xF4 b
  | escape, b => isSpacing b
  | intermediate, b => isSpacing b
  | control, b => isSpacing b
  | _, _ => false

end Sequence

/-- A reader of text with controls in it. -/
structure Stripper where
  sequence : Sequence := .none
  /-- Whether the last byte was kept. -/
  keeping : Bool := false

/-- Whether a byte is kept, and the reader after it. Once bytes are kept, they are until the next
control; the later bytes of a character go with its first. -/
def Stripper.next (s : Stripper) (b : UInt8) : Bool × Stripper :=
  if s.keeping && decide (0x80 ≤ b) then (true, ⟨.none, true⟩)
  else if s.keeping && Sequence.none.shows b then (true, s)
  else (s.sequence.shows b, ⟨s.sequence.next b, s.sequence.shows b⟩)

def keptFrom (s : Stripper) : Bytes → Bytes
  | [] => []
  | b :: rest =>
    let (kept, s) := s.next b
    if kept then b :: keptFrom s rest else keptFrom s rest

/-- A text without controls. -/
def withoutControls (text : String) : String := lossy (keptFrom {} (bytesOf text))

end LinearLight.Text
