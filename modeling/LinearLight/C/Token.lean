import LinearLight.Code.Item

/-!
# Tokens of C text

A reader for a small part of C: directives, comments between slashes and stars, decimal constants,
names, and the keywords and marks that tables and functions need. It goes over the text once, with a
mode that remembers what it stands in. Text outside this part of C is refused, and so are the line
splices and trigraphs that would change what the characters mean.

## Main definitions

- `C.Token`: a keyword, a type, a name, a constant, a mark or a directive
- `C.Token.ofWord?`: what a word is
- `C.Mode`, `C.step`, `C.scan`: the reader
- `C.tokensOf?`: the tokens of a text
-/

namespace LinearLight.C

open Code (ElementType)

/-- The keywords that tables and functions need. -/
inductive Keyword where
  | external
  | static
  | inlined
  | constant
  | result
deriving DecidableEq

inductive Mark where
  | openBracket
  | closeBracket
  | openBrace
  | closeBrace
  | openParen
  | closeParen
  | comma
  | semicolon
  | equals
deriving DecidableEq

def Mark.ofChar? (c : Char) : Option Mark :=
  if c = '[' then some openBracket
  else if c = ']' then some closeBracket
  else if c = '\x7b' then some openBrace
  else if c = '\x7d' then some closeBrace
  else if c = '(' then some openParen
  else if c = ')' then some closeParen
  else if c = ',' then some comma
  else if c = ';' then some semicolon
  else if c = '=' then some equals
  else none

inductive Token where
  | keyword (k : Keyword)
  | type (t : ElementType)
  | name (text : String)
  | number (value : Nat)
  | mark (m : Mark)
  /-- A directive, without its `#` and its line end. -/
  | directive (text : List Char)
deriving DecidableEq

/-- The keywords of C that are no tokens here. No name may be one of them. -/
def reserved : List String :=
  ["auto", "break", "case", "char", "continue", "default", "do", "double", "else", "enum", "float",
    "for", "goto", "if", "int", "long", "register", "restrict", "short", "signed", "sizeof",
    "struct", "switch", "typedef", "union", "unsigned", "void", "volatile", "while"]

/-- Whether a character can stand in a word. -/
def isWordChar (c : Char) : Bool := c.isAlphanum || c = '_'

/-- What a word is. A word that begins with a digit is a constant; in one with more digits, a zero
in front would make it octal, so it is refused. -/
def Token.ofWord? (word : List Char) : Option Token :=
  if word.head?.any Char.isDigit then (Decimal.canonicalValue? word).map number
  else if word = "extern".toList then some (keyword .external)
  else if word = "static".toList then some (keyword .static)
  else if word = "inline".toList then some (keyword .inlined)
  else if word = "const".toList then some (keyword .constant)
  else if word = "return".toList then some (keyword .result)
  else if word = "uint16_t".toList then some (type .uint16)
  else if word = "uint8_t".toList then some (type .uint8)
  else if reserved.any (·.toList = word) then none
  else some (name (String.ofList word))

/-- What the reader stands in. -/
inductive Mode where
  /-- Behind a line end and blanks: here a directive may begin. -/
  | lineStart
  | between
  | word (read : List Char)
  | directive (read : List Char)
  | slash
  | comment
  /-- In a comment, behind a star. -/
  | star
deriving DecidableEq

/-- What a character does that stands in no word, directive or comment. -/
def stepBetween (mode : Mode) (c : Char) : Option (Mode × List Token) :=
  if c = '\n' then some (.lineStart, [])
  else if c = ' ' then some (mode, [])
  else if c = '#' then if mode = .lineStart then some (.directive [], []) else none
  else if c = '/' then some (.slash, [])
  else if isWordChar c then some (.word [c], [])
  else (Mark.ofChar? c).map fun m => (.between, [.mark m])

/-- The mode behind a character, and the tokens that end with it. -/
def step (mode : Mode) (c : Char) : Option (Mode × List Token) :=
  -- these two characters can begin a line splice or a trigraph, wherever they stand
  if c = '\\' ∨ c = '?' then none
  else
    match mode with
    | .lineStart => stepBetween .lineStart c
    | .between => stepBetween .between c
    | .word read =>
      if isWordChar c then some (.word (read ++ [c]), [])
      else do
        let token ← Token.ofWord? read
        let (mode, tokens) ← stepBetween .between c
        some (mode, token :: tokens)
    | .directive read =>
      if c = '\n' then some (.lineStart, [.directive read])
      else some (.directive (read ++ [c]), [])
    | .slash => if c = '*' then some (.comment, []) else none
    | .comment => some (if c = '*' then .star else .comment, [])
    | .star => some (if c = '/' then .between else if c = '*' then .star else .comment, [])

/-- The mode behind a text, and the tokens that end in it. -/
def scan (mode : Mode) : List Char → Option (Mode × List Token)
  | [] => some (mode, [])
  | c :: rest => do
    let (mode, first) ← step mode c
    let (mode, more) ← scan mode rest
    some (mode, first ++ more)

/-- The tokens of a text whose last line is ended. -/
def tokensOf? (text : List Char) : Option (List Token) := do
  let (mode, tokens) ← scan .lineStart text
  if mode = .lineStart then some tokens else none

end LinearLight.C
