import LinearLight.Decimal.Digits

/-!
# Pieces of C text

The few forms of C that the artifacts are made of. Each piece takes whole lines.

## Main definitions

- `Code.ElementType`: the types of table entries
- `Code.Item`: one piece of C text
- `Code.Item.lines`: the lines of a piece
- `Code.render`: the text of a sequence of pieces
-/

namespace LinearLight.Code

/-- The C type of a table's entries. -/
inductive ElementType where
  | uint16
  | uint8
deriving DecidableEq

def ElementType.keyword : ElementType → String
  | uint16 => "uint16_t"
  | uint8 => "uint8_t"

/-- One piece of C text. -/
inductive Item where
  | pragmaOnce
  | includeSystem (header : String)
  | includeLocal (header : String)
  | blank
  | comment (text : String)
  | declaration (type : ElementType) (array : String) (length : Nat)
  | accessor (type : ElementType) (function : String) (array : String)
  | definition (type : ElementType) (array : String) (entries : List Nat)
deriving DecidableEq

def entryLine (entry : Nat) : String := "    " ++ Decimal.ofNat entry ++ ","

/-- The lines of a piece. An accessor takes the index as its one argument `v`; a definition has one
initializer to a line. -/
def Item.lines : Item → List String
  | pragmaOnce => ["#pragma once"]
  | includeSystem header => ["#include <" ++ header ++ ">"]
  | includeLocal header => ["#include \"" ++ header ++ "\""]
  | blank => [""]
  | comment text => ["/* " ++ text ++ " */"]
  | declaration type array length =>
    ["extern const " ++ type.keyword ++ " " ++ array ++ "[" ++ Decimal.ofNat length ++ "];"]
  | accessor type function array =>
    ["static inline " ++ type.keyword,
      function ++ "(uint8_t v)",
      "\x7b",
      "    return " ++ array ++ "[v];",
      "\x7d"]
  | definition type array entries =>
    ("const " ++ type.keyword ++ " " ++ array ++ "[" ++ Decimal.ofNat entries.length ++ "] = \x7b")
      :: entries.map entryLine ++ ["\x7d;"]

/-- Lines as text, each with its end. -/
def joinLines (lines : List String) : String := String.join (lines.map (· ++ "\n"))

/-- The text of pieces one after the other. -/
def render (items : List Item) : String := joinLines (items.flatMap Item.lines)

end LinearLight.Code
