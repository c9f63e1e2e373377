import LinearLight.C.File
import LinearLight.Proofs.Code.Artifact
import LinearLight.Proofs.Decimal.Digits

/-!
# The tokens of written text

Text is scanned part by part, each part in the mode that the part before it ends in. So the tokens
of a piece of text follow from those of its words and of the fixed text around them.

## Main definitions

- `C.Scans`: what a text takes the reader from and to
- `C.IsWord`: a word and the token that it is
- `C.IsPlain`: the pieces of text whose names can be read
- `C.itemTokens`: the tokens of a piece of text

## Main statements

- `C.Scans.append`, `C.Scans.word_then`
- `C.scans_item`: a piece of text has its tokens
-/

namespace LinearLight.C

open Code (ElementType Item joinLines entryLine)

/-- A text takes the reader from one mode to another, and these tokens end in it. -/
def Scans (m : Mode) (text : List Char) (m' : Mode) (tokens : List Token) : Prop :=
  scan m text = some (m', tokens)

/-- A word and the token that it is. -/
structure IsWord (word : List Char) (token : Token) : Prop where
  ne_nil : word ≠ []
  isWordChar_of_mem : ∀ c ∈ word, isWordChar c = true
  ofWord?_eq : Token.ofWord? word = some token

/-- A character of a class is none that the class leaves out. -/
theorem ne_of_class {p : Char → Bool} {c d : Char} (hc : p c = true) (hd : p d = false) :
    c ≠ d := by
  rintro rfl
  rw [hc] at hd
  cases hd

namespace Scans

variable {m m' m'' : Mode} {text rest : List Char} {tokens more : List Token}

theorem nil (m : Mode) : Scans m [] m [] := rfl

theorem cons {c : Char} (h : step m c = some (m', tokens)) (hrest : Scans m' rest m'' more) :
    Scans m (c :: rest) m'' (tokens ++ more) := by
  rw [Scans] at hrest
  simp [Scans, scan, h, hrest]

theorem exists_of_cons {c : Char} (h : Scans m (c :: rest) m'' tokens) :
    ∃ m' first more, step m c = some (m', first) ∧ Scans m' rest m'' more ∧
      tokens = first ++ more := by
  obtain ⟨⟨m', first⟩, hstep, h⟩ := Option.bind_eq_some_iff.mp h
  obtain ⟨⟨m'', more⟩, hrest, h⟩ := Option.bind_eq_some_iff.mp h
  obtain ⟨rfl, rfl⟩ := Prod.mk.inj (Option.some.inj h)
  exact ⟨m', first, more, hstep, hrest, rfl⟩

theorem append (h : Scans m text m' tokens) (hrest : Scans m' rest m'' more) :
    Scans m (text ++ rest) m'' (tokens ++ more) := by
  induction text generalizing m tokens with
  | nil =>
    obtain ⟨rfl, rfl⟩ := Prod.mk.inj (Option.some.inj h)
    exact hrest
  | cons c text ih =>
    obtain ⟨m₁, first, later, hstep, htext, rfl⟩ := exists_of_cons h
    rw [List.append_assoc]
    exact cons hstep (ih htext)

/-! ### Words -/

theorem step_word {read : List Char} {c : Char} (hc : isWordChar c = true) :
    step (.word read) c = some (.word (read ++ [c]), []) := by
  have hslash : c ≠ '\\' := ne_of_class hc (by decide)
  have hmark : c ≠ '?' := ne_of_class hc (by decide)
  simp [step, hslash, hmark, hc]

/-- The first character of a word begins it. -/
theorem step_begin {c : Char} (hm : m = .lineStart ∨ m = .between) (hc : isWordChar c = true) :
    step m c = some (.word [c], []) := by
  have hslash : c ≠ '\\' := ne_of_class hc (by decide)
  have hmark : c ≠ '?' := ne_of_class hc (by decide)
  have hend : c ≠ '\n' := ne_of_class hc (by decide)
  have hblank : c ≠ ' ' := ne_of_class hc (by decide)
  have hhash : c ≠ '#' := ne_of_class hc (by decide)
  have hslant : c ≠ '/' := ne_of_class hc (by decide)
  rcases hm with rfl | rfl <;>
    simp [step, stepBetween, hslash, hmark, hend, hblank, hhash, hslant, hc]

theorem word {read word : List Char} (h : ∀ c ∈ word, isWordChar c = true) :
    Scans (.word read) word (.word (read ++ word)) [] := by
  induction word generalizing read with
  | nil => rw [List.append_nil]; exact nil _
  | cons c word ih =>
    obtain ⟨hc, hword⟩ := List.forall_mem_cons.mp h
    have hrest : Scans (.word (read ++ [c])) word (.word (read ++ [c] ++ word)) [] := ih hword
    rw [List.append_assoc, List.singleton_append] at hrest
    exact cons (step_word hc) hrest

theorem step_word_end {read : List Char} {token : Token} {c : Char}
    (hread : Token.ofWord? read = some token) (hc : isWordChar c = false)
    (hstep : step .between c = some (m', tokens)) :
    step (.word read) c = some (m', token :: tokens) := by
  unfold step at hstep ⊢
  split at hstep
  · cases hstep
  · next hplain =>
    dsimp only at hstep
    simp [hplain, hc, hread, hstep]

/-- A word ends at the first character that cannot stand in it. -/
theorem word_then {word : List Char} {token : Token} (hm : m = .lineStart ∨ m = .between)
    (hword : IsWord word token) (hnext : rest.head?.any (!isWordChar ·) = true)
    (hrest : Scans .between rest m' tokens) : Scans m (word ++ rest) m' (token :: tokens) := by
  cases rest with
  | nil => cases hnext
  | cons c rest =>
    obtain ⟨ends, first, more, hstep, hmore, rfl⟩ := exists_of_cons hrest
    have hend : step (.word word) c = some (ends, token :: first) :=
      step_word_end hword.ofWord?_eq (by simpa using hnext) hstep
    cases word with
    | nil => exact absurd rfl hword.ne_nil
    | cons d word =>
      obtain ⟨hd, hchars⟩ := List.forall_mem_cons.mp hword.isWordChar_of_mem
      have hread : Scans m (d :: word) (.word (d :: word)) [] :=
        cons (step_begin hm hd) (Scans.word hchars)
      exact hread.append (cons hend hmore)

/-! ### Directives and comments -/

theorem directive {read text : List Char} (h : ∀ c ∈ text, c ≠ '\n' ∧ c ≠ '\\' ∧ c ≠ '?') :
    Scans (.directive read) (text ++ ['\n']) .lineStart [.directive (read ++ text)] := by
  induction text generalizing read with
  | nil => rw [List.append_nil]; rfl
  | cons c text ih =>
    obtain ⟨⟨hend, hslash, hmark⟩, htext⟩ := List.forall_mem_cons.mp h
    have hstep : step (.directive read) c = some (.directive (read ++ [c]), []) := by
      simp [step, hend, hslash, hmark]
    have hrest : Scans (.directive (read ++ [c])) (text ++ ['\n']) .lineStart
        [.directive (read ++ [c] ++ text)] := ih htext
    rw [List.append_assoc, List.singleton_append] at hrest
    exact cons hstep hrest

theorem comment {text : List Char} (h : ∀ c ∈ text, c ≠ '*' ∧ c ≠ '\\' ∧ c ≠ '?') :
    Scans .comment text .comment [] := by
  induction text with
  | nil => exact nil _
  | cons c text ih =>
    obtain ⟨⟨hstar, hslash, hmark⟩, htext⟩ := List.forall_mem_cons.mp h
    have hstep : step .comment c = some (.comment, []) := by simp [step, hstar, hslash, hmark]
    exact cons hstep (ih htext)

/-- Lines are scanned one after the other. -/
theorem line_cons {line : String} {lines : List String}
    (h : Scans .lineStart (line.toList ++ ['\n']) .lineStart tokens)
    (hrest : Scans .lineStart (joinLines lines).toList .lineStart more) :
    Scans .lineStart (joinLines (line :: lines)).toList .lineStart (tokens ++ more) := by
  rw [Code.toList_joinLines] at hrest ⊢
  exact h.append hrest

/-- The one line of a piece of text. -/
theorem line {line : String}
    (h : Scans .lineStart (line.toList ++ ['\n']) .lineStart tokens) :
    Scans .lineStart (joinLines [line]).toList .lineStart tokens := by
  rw [← List.append_nil tokens]
  exact line_cons h (nil _)

end Scans

/-! ### The words of written text -/

theorem isWord_keyword (type : ElementType) : IsWord type.keyword.toList (.type type) := by
  cases type <;> exact ⟨by decide, List.all_eq_true.mp (by decide), by decide⟩

theorem isDigit_eq {c : Char} (h : '0' ≤ c ∧ c ≤ '9') : c.isDigit = true := by
  simp only [Char.isDigit, Bool.and_eq_true, decide_eq_true_eq]
  exact h

theorem isWord_digitsOf (n : Nat) : IsWord (Decimal.digitsOf n) (.number n) where
  ne_nil := Decimal.digitsOf_ne_nil n
  isWordChar_of_mem c hc := by
    simp [isWordChar, Char.isAlphanum, isDigit_eq (Decimal.isDigit_of_mem_digitsOf hc)]
  ofWord?_eq := by
    have hvalue : Decimal.canonicalValue? (Decimal.digitsOf n) = some n :=
      Decimal.canonicalValue?_eq_some_iff.mpr rfl
    obtain ⟨c, rest, hdigits⟩ := List.exists_cons_of_ne_nil (Decimal.digitsOf_ne_nil n)
    have hc : c ∈ Decimal.digitsOf n := hdigits ▸ List.mem_cons_self
    have hdigit : (Decimal.digitsOf n).head?.any Char.isDigit = true := by
      rw [hdigits]
      exact isDigit_eq (Decimal.isDigit_of_mem_digitsOf hc)
    rw [Token.ofWord?, if_pos hdigit, hvalue]
    rfl

/-- A name that is read as such. -/
def IsIdentifier (name : String) : Prop := IsWord name.toList (.name name)

/-- A file name that is read as such. -/
def IsFileName (file : String) : Prop := file.toList ≠ [] ∧ ∀ c ∈ file.toList, isFileChar c = true

/-- Whether the names and remarks in a piece of text can be read. -/
def IsPlain : Item → Prop
  | .pragmaOnce => True
  | .includeSystem file => IsFileName file
  | .includeLocal file => IsFileName file
  | .blank => True
  | .comment text => ∀ c ∈ text.toList, c ≠ '*' ∧ c ≠ '\\' ∧ c ≠ '?'
  | .declaration _ array _ => IsIdentifier array
  | .accessor _ function array => IsIdentifier function ∧ IsIdentifier array
  | .definition _ array _ => IsIdentifier array

/-- The tokens of a piece of text. -/
def itemTokens : Item → List Token
  | .pragmaOnce => [.directive "pragma once".toList]
  | .includeSystem file => [.directive ("include <".toList ++ file.toList ++ ">".toList)]
  | .includeLocal file => [.directive ("include \"".toList ++ file.toList ++ "\"".toList)]
  | .blank => []
  | .comment _ => []
  | .declaration type array length =>
    [.keyword .external, .keyword .constant, .type type, .name array, .mark .openBracket,
      .number length, .mark .closeBracket, .mark .semicolon]
  | .accessor type function array =>
    [.keyword .static, .keyword .inlined, .type type, .name function, .mark .openParen,
      .type .uint8, .name "v", .mark .closeParen, .mark .openBrace, .keyword .result, .name array,
      .mark .openBracket, .name "v", .mark .closeBracket, .mark .semicolon, .mark .closeBrace]
  | .definition type array entries =>
    [.keyword .constant, .type type, .name array, .mark .openBracket, .number entries.length,
      .mark .closeBracket, .mark .equals, .mark .openBrace] ++
      (entries.flatMap fun n => [.number n, .mark .comma]) ++
      [.mark .closeBrace, .mark .semicolon]

section Lines

variable {type : ElementType} {name : String}

theorem scans_directive {line : String} (text : List Char) (h : line.toList = '#' :: text)
    (htext : ∀ c ∈ text, c ≠ '\n' ∧ c ≠ '\\' ∧ c ≠ '?') :
    Scans .lineStart (joinLines [line]).toList .lineStart [.directive text] := by
  refine .line ?_
  rw [h]
  exact .cons (rfl : step .lineStart '#' = some (.directive [], [])) (.directive htext)

/-- The line that includes a file, by the marks around its name. -/
theorem scans_include (before last : String) {file : String} (hfile : IsFileName file)
    (hbefore : ∀ c ∈ before.toList, c ≠ '\n' ∧ c ≠ '\\' ∧ c ≠ '?')
    (hlast : ∀ c ∈ last.toList, c ≠ '\n' ∧ c ≠ '\\' ∧ c ≠ '?') :
    Scans .lineStart (joinLines ["#" ++ before ++ file ++ last]).toList .lineStart
      [.directive (before.toList ++ file.toList ++ last.toList)] := by
  refine scans_directive _ ?_ fun c hc => ?_
  · simp only [String.toList_append]
    rfl
  · simp only [List.mem_append] at hc
    rcases hc with (hc | hc) | hc
    · exact hbefore c hc
    · have hchar := hfile.2 c hc
      exact ⟨ne_of_class hchar (by decide), ne_of_class hchar (by decide),
        ne_of_class hchar (by decide)⟩
    · exact hlast c hc

theorem scans_comment {text : String} (h : IsPlain (.comment text)) :
    Scans .lineStart (joinLines ["/* " ++ text ++ " */"]).toList .lineStart [] := by
  refine .line ?_
  have hend : Scans .comment (" */".toList ++ ['\n']) .lineStart [] := rfl
  simp only [String.toList_append, List.append_assoc]
  exact .append (rfl : Scans .lineStart "/* ".toList .comment []) (.append (.comment h) hend)

/-- An array's type, name and length, as declarations and definitions have them. -/
theorem scans_declarator (h : IsIdentifier name) (length : Nat) {rest : List Char}
    {tokens : List Token} (hnext : rest.head?.any (!isWordChar ·) = true)
    (hrest : Scans .between rest .lineStart tokens) :
    Scans .between (type.keyword.toList ++ (" ".toList ++ (name.toList ++ ("[".toList ++
      (Decimal.digitsOf length ++ rest))))) .lineStart
      (.type type :: .name name :: .mark .openBracket :: .number length :: tokens) := by
  have hlength : Scans .between (Decimal.digitsOf length ++ rest) .lineStart _ :=
    .word_then (.inr rfl) (isWord_digitsOf length) hnext hrest
  have hname : Scans .between (name.toList ++ ("[".toList ++ _)) .lineStart _ :=
    .word_then (.inr rfl) h rfl (.append rfl hlength)
  exact .word_then (.inr rfl) (isWord_keyword type) rfl
    (.append (rfl : Scans .between " ".toList .between []) hname)

theorem scans_declaration (h : IsIdentifier name) (length : Nat) :
    Scans .lineStart (joinLines (Item.declaration type name length).lines).toList .lineStart
      (itemTokens (.declaration type name length)) := by
  refine .line ?_
  have hend : Scans .between ("];".toList ++ ['\n']) .lineStart _ := rfl
  simp only [String.toList_append, List.append_assoc, Decimal.ofNat, String.toList_ofList]
  exact .append (rfl : Scans .lineStart "extern const ".toList .between _)
    (scans_declarator h length rfl hend)

/-- The first line of a definition. -/
theorem scans_opening (h : IsIdentifier name) (length : Nat) :
    Scans .lineStart (("const " ++ type.keyword ++ " " ++ name ++ "[" ++ Decimal.ofNat length ++
      "] = \x7b").toList ++ ['\n']) .lineStart
      [.keyword .constant, .type type, .name name, .mark .openBracket, .number length,
        .mark .closeBracket, .mark .equals, .mark .openBrace] := by
  have hend : Scans .between ("] = \x7b".toList ++ ['\n']) .lineStart _ := rfl
  simp only [String.toList_append, List.append_assoc, Decimal.ofNat, String.toList_ofList]
  exact .append (rfl : Scans .lineStart "const ".toList .between _)
    (scans_declarator h length rfl hend)

theorem scans_entryLine (n : Nat) :
    Scans .lineStart ((entryLine n).toList ++ ['\n']) .lineStart [.number n, .mark .comma] := by
  have hnumber : Scans .lineStart (Decimal.digitsOf n ++ (",".toList ++ ['\n'])) .lineStart _ :=
    .word_then (.inl rfl) (isWord_digitsOf n) rfl rfl
  simp only [entryLine, String.toList_append, List.append_assoc, Decimal.ofNat,
    String.toList_ofList]
  exact .append (rfl : Scans .lineStart "    ".toList .lineStart []) hnumber

theorem scans_entryLines (entries : List Nat) :
    Scans .lineStart (joinLines (entries.map entryLine)).toList .lineStart
      (entries.flatMap fun n => [.number n, .mark .comma]) := by
  induction entries with
  | nil => rfl
  | cons n entries ih => exact .line_cons (scans_entryLine n) ih

theorem scans_definition (h : IsIdentifier name) (entries : List Nat) :
    Scans .lineStart (joinLines (Item.definition type name entries).lines).toList .lineStart
      (itemTokens (.definition type name entries)) := by
  have hend : Scans .lineStart (joinLines ["\x7d;"]).toList .lineStart
      [.mark .closeBrace, .mark .semicolon] := rfl
  rw [Item.lines, List.cons_append, itemTokens, List.append_assoc]
  refine .line_cons (scans_opening h entries.length) ?_
  rw [Code.joinLines_append, String.toList_append]
  exact (scans_entryLines entries).append hend

theorem scans_accessor {function : String} (hfunction : IsIdentifier function)
    (hname : IsIdentifier name) :
    Scans .lineStart (joinLines (Item.accessor type function name).lines).toList .lineStart
      (itemTokens (.accessor type function name)) := by
  have hkeyword : Scans .between (type.keyword.toList ++ ['\n']) .lineStart [.type type] :=
    .word_then (.inr rfl) (isWord_keyword type) rfl rfl
  have hhead : Scans .lineStart (("static inline " ++ type.keyword).toList ++ ['\n']) .lineStart
      [.keyword .static, .keyword .inlined, .type type] := by
    rw [String.toList_append, List.append_assoc]
    exact .append (rfl : Scans .lineStart "static inline ".toList .between _) hkeyword
  have hparameter : Scans .lineStart ((function ++ "(uint8_t v)").toList ++ ['\n']) .lineStart
      [.name function, .mark .openParen, .type .uint8, .name "v", .mark .closeParen] := by
    rw [String.toList_append, List.append_assoc]
    exact .word_then (.inl rfl) hfunction rfl rfl
  have hindex : Scans .between (name.toList ++ ("[v];".toList ++ ['\n'])) .lineStart _ :=
    .word_then (.inr rfl) hname rfl rfl
  have hresult : Scans .lineStart (("    return " ++ name ++ "[v];").toList ++ ['\n']) .lineStart
      [.keyword .result, .name name, .mark .openBracket, .name "v", .mark .closeBracket,
        .mark .semicolon] := by
    simp only [String.toList_append, List.append_assoc]
    exact .append (rfl : Scans .lineStart "    return ".toList .between _) hindex
  have hopen : Scans .lineStart ("\x7b".toList ++ ['\n']) .lineStart [.mark .openBrace] := rfl
  have hclose : Scans .lineStart ("\x7d".toList ++ ['\n']) .lineStart [.mark .closeBrace] := rfl
  exact .line_cons hhead <| .line_cons hparameter <| .line_cons hopen <|
    .line_cons hresult (.line hclose)

end Lines

/-- A piece of text has its tokens. -/
theorem scans_item {item : Item} (h : IsPlain item) :
    Scans .lineStart (joinLines item.lines).toList .lineStart (itemTokens item) := by
  cases item with
  | pragmaOnce => exact scans_directive "pragma once".toList rfl (by simp)
  | includeSystem file =>
    exact scans_include "include <" ">" h (by simp) (by simp)
  | includeLocal file =>
    exact scans_include "include \"" "\"" h (by simp) (by simp)
  | blank => exact .line rfl
  | comment text => exact scans_comment h
  | declaration type array length => exact scans_declaration h length
  | accessor type function array => exact scans_accessor h.1 h.2
  | definition type array entries => exact scans_definition h entries

end LinearLight.C
