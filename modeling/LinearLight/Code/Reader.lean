import LinearLight.Code.Artifact
import LinearLight.Split

/-!
# Reading the source back

A strict reader of the source's format. It knows the format line by line and accepts nothing else:
both arrays with 256 initializers each, every number without a sign or superfluous zeros and within
its type's range, and every line ended.

## Main definitions

- `Code.linesOf?`: the lines of a text whose every line is ended
- `Code.entryOf?`: the number on the line of an initializer
- `Code.tablesOf?`: the tables that a source defines
-/

namespace LinearLight.Code

/-- The lines of a text, if its last line is ended like the others. -/
def linesOf? (text : List Char) : Option (List (List Char)) :=
  let parts := split '\n' text
  if parts.getLast? = some [] then some parts.dropLast else none

/-- The number on the line of an initializer, if it is at most `largest`. -/
def entryOf? (largest : Nat) (line : List Char) : Option Nat :=
  match line with
  | ' ' :: ' ' :: ' ' :: ' ' :: rest =>
    if rest.getLast? = some ',' then do
      let n ← Decimal.canonicalValue? rest.dropLast
      if n ≤ largest then some n else none
    else none
  | _ => none

/-- The entries of an array between its first line and its last, and the lines after it. -/
def arrayOf? (opening : String) (largest : Nat) (lines : List (List Char)) :
    Option (List Nat × List (List Char)) :=
  match lines with
  | [] => none
  | first :: rest =>
    if first = opening.toList then
      match rest.drop 256 with
      | last :: after =>
        if last = "\x7d;".toList then do
          let entries ← (rest.take 256).mapM (entryOf? largest)
          some (entries, after)
        else none
      | [] => none
    else none

/-- A table from its entries, if they are as many as it needs. -/
def tableOf? {α : Type} (entries : List α) : Option (Vector α 256) :=
  if h : entries.toArray.size = 256 then some ⟨entries.toArray, h⟩ else none

/-- The tables that the lines of a source define. -/
def tablesOfLines? (lines : List (List Char)) : Option Tables :=
  match lines with
  | first :: second :: rest =>
    if first = "#include \"srgb.h\"".toList ∧ second = [] then do
      let (entries16, rest) ←
        arrayOf? "const uint16_t srgb_decode_8_to_16_table[256] = \x7b" 65535 rest
      let (entries8, rest) ←
        arrayOf? "const uint8_t srgb_decode_8_to_8_table[256] = \x7b" 255 rest
      if rest.isEmpty then
        return ⟨← tableOf? (entries16.map UInt16.ofNat), ← tableOf? (entries8.map UInt8.ofNat)⟩
      else none
    else none
  | _ => none

/-- The tables that a source defines. -/
def tablesOf? (text : String) : Option Tables := do
  let lines ← linesOf? text.toList
  tablesOfLines? lines

end LinearLight.Code
