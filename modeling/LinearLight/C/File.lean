import LinearLight.C.Token

/-!
# C files that declare and define tables

A file of this kind is a sequence of pieces: directives, declarations of arrays that are defined
elsewhere, definitions of arrays with their initializers, and functions that return the element of
an array at their parameter. Each piece is read from the tokens in front, up to where it ends.

## Main definitions

- `C.Piece`: one piece of a file
- `C.piece?`: the piece in front of some tokens, and the tokens behind it
- `C.File`: what a file includes, declares and defines
- `C.File.read?`: the file that a text is
-/

namespace LinearLight.C

open Code (ElementType)

/-- A directive: the file is to be included once, or another one is included. -/
inductive Directive where
  | once
  | includeAngled (file : String)
  | includeQuoted (file : String)
deriving DecidableEq

/-- `extern const T name[length];` -/
structure ArrayDeclaration where
  type : ElementType
  name : String
  length : Nat
deriving DecidableEq

/-- `const T name[length] = \x7b initializers \x7d;` -/
structure ArrayDefinition where
  type : ElementType
  name : String
  length : Nat
  initializers : List Nat
deriving DecidableEq

/-- `static inline T name(P parameter) \x7b return array[index]; \x7d` -/
structure Accessor where
  type : ElementType
  name : String
  parameterType : ElementType
  parameter : String
  array : String
  index : String
deriving DecidableEq

inductive Piece where
  | directive (d : Directive)
  | array (a : ArrayDeclaration)
  | definition (d : ArrayDefinition)
  | accessor (f : Accessor)
deriving DecidableEq

/-- Whether a character can stand in the name of an included file. -/
def isFileChar (c : Char) : Bool := isWordChar c || c = '.'

/-- The name of a file up to the mark that ends it. -/
def fileName? (last : Char) (text : List Char) : Option String :=
  if text.getLast? = some last ∧ text.dropLast ≠ [] ∧ text.dropLast.all isFileChar then
    some (String.ofList text.dropLast)
  else none

def Directive.read? (text : List Char) : Option Directive :=
  if text = "pragma once".toList then some once
  else
    match text with
    | 'i' :: 'n' :: 'c' :: 'l' :: 'u' :: 'd' :: 'e' :: ' ' :: '<' :: rest =>
      (fileName? '>' rest).map includeAngled
    | 'i' :: 'n' :: 'c' :: 'l' :: 'u' :: 'd' :: 'e' :: ' ' :: '"' :: rest =>
      (fileName? '"' rest).map includeQuoted
    | _ => none

/-- The initializers up to the closing brace, and the tokens behind it. The last one may have a
comma behind it. -/
def initializers? : List Token → Option (List Nat × List Token)
  | .mark .closeBrace :: rest => some ([], rest)
  | .number n :: .mark .closeBrace :: rest => some ([n], rest)
  | .number n :: .mark .comma :: rest => do
    let (more, rest) ← initializers? rest
    some (n :: more, rest)
  | _ => none

def directive? : List Token → Option (Piece × List Token)
  | .directive text :: rest => (Directive.read? text).map fun d => (.directive d, rest)
  | _ => none

def array? : List Token → Option (Piece × List Token)
  | .keyword .external :: .keyword .constant :: .type type :: .name name :: .mark .openBracket ::
      .number length :: .mark .closeBracket :: .mark .semicolon :: rest =>
    some (.array ⟨type, name, length⟩, rest)
  | _ => none

def definition? : List Token → Option (Piece × List Token)
  | .keyword .constant :: .type type :: .name name :: .mark .openBracket :: .number length ::
      .mark .closeBracket :: .mark .equals :: .mark .openBrace :: rest => do
    let (initializers, rest) ← initializers? rest
    match rest with
    | .mark .semicolon :: rest => some (.definition ⟨type, name, length, initializers⟩, rest)
    | _ => none
  | _ => none

def accessor? : List Token → Option (Piece × List Token)
  | .keyword .static :: .keyword .inlined :: .type type :: .name name :: .mark .openParen ::
      .type parameterType :: .name parameter :: .mark .closeParen :: .mark .openBrace ::
      .keyword .result :: .name array :: .mark .openBracket :: .name index ::
      .mark .closeBracket :: .mark .semicolon :: .mark .closeBrace :: rest =>
    some (.accessor ⟨type, name, parameterType, parameter, array, index⟩, rest)
  | _ => none

/-- The piece in front of some tokens, and the tokens behind it. -/
def piece? (tokens : List Token) : Option (Piece × List Token) :=
  directive? tokens <|> array? tokens <|> definition? tokens <|> accessor? tokens

theorem length_lt_of_initializers? {tokens rest : List Token} {entries : List Nat}
    (h : initializers? tokens = some (entries, rest)) : rest.length < tokens.length := by
  fun_induction initializers? tokens generalizing entries with
  | case1 behind =>
    obtain ⟨-, rfl⟩ := Prod.mk.inj (Option.some.inj h)
    exact Nat.lt_succ_self _
  | case2 n behind =>
    obtain ⟨-, rfl⟩ := Prod.mk.inj (Option.some.inj h)
    simp only [List.length_cons]
    omega
  | case3 n tokens ih =>
    obtain ⟨⟨more, rest'⟩, hmore, h⟩ := Option.bind_eq_some_iff.mp h
    obtain ⟨-, rfl⟩ := Prod.mk.inj (Option.some.inj h)
    have := ih hmore
    simp only [List.length_cons]
    omega
  | case4 => cases h

theorem length_lt_of_directive? {tokens rest : List Token} {p : Piece}
    (h : directive? tokens = some (p, rest)) : rest.length < tokens.length := by
  unfold directive? at h
  split at h
  · obtain ⟨d, -, h⟩ := Option.map_eq_some_iff.mp h
    obtain ⟨-, rfl⟩ := Prod.mk.inj h
    simp
  · cases h

theorem length_lt_of_array? {tokens rest : List Token} {p : Piece}
    (h : array? tokens = some (p, rest)) : rest.length < tokens.length := by
  unfold array? at h
  split at h
  · obtain ⟨-, rfl⟩ := Prod.mk.inj (Option.some.inj h)
    simp only [List.length_cons]
    omega
  · cases h

theorem length_lt_of_definition? {tokens rest : List Token} {p : Piece}
    (h : definition? tokens = some (p, rest)) : rest.length < tokens.length := by
  unfold definition? at h
  split at h
  · obtain ⟨⟨entries, behind⟩, hentries, h⟩ := Option.bind_eq_some_iff.mp h
    have := length_lt_of_initializers? hentries
    dsimp only at h
    split at h
    · obtain ⟨-, rfl⟩ := Prod.mk.inj (Option.some.inj h)
      simp only [List.length_cons] at this ⊢
      omega
    · cases h
  · cases h

theorem length_lt_of_accessor? {tokens rest : List Token} {p : Piece}
    (h : accessor? tokens = some (p, rest)) : rest.length < tokens.length := by
  unfold accessor? at h
  split at h
  · obtain ⟨-, rfl⟩ := Prod.mk.inj (Option.some.inj h)
    simp only [List.length_cons]
    omega
  · cases h

/-- Every piece takes a token. -/
theorem length_lt_of_piece? {tokens rest : List Token} {p : Piece}
    (h : piece? tokens = some (p, rest)) : rest.length < tokens.length := by
  simp only [piece?, Option.orElse_eq_orElse, Option.orElse_eq_or, Option.or_eq_some_iff] at h
  rcases h with h | ⟨-, h | ⟨-, h | ⟨-, h⟩⟩⟩
  · exact length_lt_of_directive? h
  · exact length_lt_of_array? h
  · exact length_lt_of_definition? h
  · exact length_lt_of_accessor? h

/-- The pieces that some tokens are. -/
def pieces? (tokens : List Token) : Option (List Piece) :=
  if tokens = [] then some []
  else
    match h : piece? tokens with
    | none => none
    | some (p, rest) =>
      have : rest.length < tokens.length := length_lt_of_piece? h
      (pieces? rest).map (p :: ·)
termination_by tokens.length

/-- What a file includes, declares and defines, in the order of the text. -/
structure File where
  pieces : List Piece
deriving DecidableEq

namespace File

def read? (text : String) : Option File := do
  let tokens ← tokensOf? text.toList
  (pieces? tokens).map File.mk

def arrays (f : File) : List ArrayDeclaration :=
  f.pieces.filterMap fun p => match p with | .array a => some a | _ => none

def definitions (f : File) : List ArrayDefinition :=
  f.pieces.filterMap fun p => match p with | .definition d => some d | _ => none

def accessors (f : File) : List Accessor :=
  f.pieces.filterMap fun p => match p with | .accessor a => some a | _ => none

end File

end LinearLight.C
