import LinearLight.Bytes

/-!
# Bytes as text

A sequence of bytes is cut into characters and, where it is not UTF-8, into bad pieces. A bad piece
is as long as the start of some character's encoding, or one byte where no character starts. Shown
to a reader, each bad piece becomes one replacement character.

## Main definitions

- `Text.Piece`: a character, or bytes that are none
- `Text.pieces`: the pieces of a sequence of bytes
- `Text.lossy`: the text shown for a sequence of bytes
-/

namespace LinearLight.Text

/-- A character, or bytes that do not make up one. -/
inductive Piece where
  | char (c : Char)
  | bad (bytes : Bytes)
deriving DecidableEq

/-- The ranges that the second and later bytes of a character lie in, by its first byte: none if no
longer character starts with it. They leave out overlong forms, surrogates and what lies beyond
the last code point. -/
def continuations (first : UInt8) : List (UInt8 × UInt8) :=
  let plain : UInt8 × UInt8 := (0x80, 0xBF)
  if first < 0xC2 then []
  else if first < 0xE0 then [plain]
  -- without the overlong forms here and at 0xF0, without the surrogates at 0xED
  else if first = 0xE0 then [(0xA0, 0xBF), plain]
  else if first = 0xED then [(0x80, 0x9F), plain]
  else if first < 0xF0 then [plain, plain]
  else if first = 0xF0 then [(0x90, 0xBF), plain, plain]
  else if first < 0xF4 then [plain, plain, plain]
  else if first = 0xF4 then [(0x80, 0x8F), plain, plain]
  else []

/-- The code point that complete bytes encode: the payload of the first byte, then six bits from
each of the others. -/
def codePoint : Bytes → Nat
  | [] => 0
  | first :: rest =>
    let payload :=
      if first < 0xE0 then first.toNat % 32
      else if first < 0xF0 then first.toNat % 16
      else first.toNat % 8
    rest.foldl (fun n b => 64 * n + b.toNat % 64) payload

/-- The start of a character: its bytes so far, and the ranges of the bytes to come. -/
structure Started where
  bytes : Bytes := []
  expected : List (UInt8 × UInt8) := []

/-- The pieces that are complete after a byte at which a character has to start, and what has been
started. -/
def beginWith (b : UInt8) : List Piece × Started :=
  if b < 0x80 then ([.char (Char.ofNat b.toNat)], {})
  else if (continuations b).isEmpty then ([.bad [b]], {})
  else ([], ⟨[b], continuations b⟩)

/-- The pieces that are complete after one more byte, and what has been started. A byte out of
range ends the started character as a bad piece and is looked at anew. -/
def Started.next (s : Started) (b : UInt8) : List Piece × Started :=
  match s.expected with
  | [] => beginWith b
  | (low, high) :: more =>
    if low ≤ b ∧ b ≤ high then
      let bytes := s.bytes ++ [b]
      if more.isEmpty then ([.char (Char.ofNat (codePoint bytes))], {}) else ([], ⟨bytes, more⟩)
    else
      let (pieces, started) := beginWith b
      (.bad s.bytes :: pieces, started)

/-- The pieces of a sequence of bytes that follows the start of a character. -/
def piecesFrom (s : Started) : Bytes → List Piece
  | [] => if s.bytes.isEmpty then [] else [.bad s.bytes]
  | b :: rest =>
    let (complete, started) := s.next b
    complete ++ piecesFrom started rest

def pieces (bytes : Bytes) : List Piece := piecesFrom {} bytes

def Piece.shown : Piece → Char
  | char c => c
  | bad _ => '\uFFFD'

def Piece.char? : Piece → Option Char
  | char c => some c
  | bad _ => none

/-- The text shown for a sequence of bytes. -/
def lossy (bytes : Bytes) : String := String.ofList ((pieces bytes).map Piece.shown)

/-- The text that a sequence of bytes is, if it is UTF-8 throughout. -/
def decoded? (bytes : Bytes) : Option String :=
  ((pieces bytes).mapM Piece.char?).map String.ofList

end LinearLight.Text
