import LinearLight.Text.Hidden
import LinearLight.Text.Utf8

/-!
# Quoted bytes

Bytes between quotes, so that every sequence of bytes has a form of its own in printable
characters: quotes, backslashes and control characters are escaped, and a byte that is not part of
a character is written with its two hexadecimal digits.

## Main definitions

- `Text.escape`: the form of one character
- `Text.quoted`: the form of a sequence of bytes
-/

namespace LinearLight.Text

def hexDigit (upper : Bool) (d : Nat) : Char :=
  if d < 10 then Char.ofNat ('0'.toNat + d)
  else Char.ofNat ((if upper then 'A' else 'a').toNat + (d - 10))

/-- The hexadecimal digits of a number, most significant first and as few as possible. -/
def hexDigits (n : Nat) : List Char :=
  if n < 16 then [hexDigit false n] else hexDigits (n / 16) ++ [hexDigit false (n % 16)]

/-- A character by its code point in braces. -/
def byCodePoint (c : Char) : List Char :=
  '\\' :: 'u' :: '\x7b' :: (hexDigits c.toNat ++ ['\x7d'])

def isShown (c : Char) : Bool :=
  if c.toNat < 0x80 then decide (' ' ≤ c) && decide (c ≤ '~') else !isHidden c.toNat

def escape (c : Char) : List Char :=
  if c = '\x00' then ['\\', '0']
  else if c = '\t' then ['\\', 't']
  else if c = '\r' then ['\\', 'r']
  else if c = '\n' then ['\\', 'n']
  else if c = '\'' || c = '"' || c = '\\' then ['\\', c]
  else if isShown c then [c]
  else byCodePoint c

/-- A byte by its two hexadecimal digits. -/
def byteEscape (b : UInt8) : List Char :=
  ['\\', 'x', hexDigit true (b.toNat / 16), hexDigit true (b.toNat % 16)]

def Piece.escaped : Piece → List Char
  | char c => escape c
  | bad bytes => bytes.flatMap byteEscape

def quoted (bytes : Bytes) : String :=
  String.ofList ('"' :: ((pieces bytes).flatMap Piece.escaped ++ ['"']))

end LinearLight.Text
