import LinearLight.Log.Expression

/-!
# Values to compare fields with

A value is a number or a regular expression. Nothing is ever compared with it here; but text that is
neither makes a filter malformed, so both grammars are checked.

## Main definitions

- `Log.isNumber`: whether a text is a number
- `Log.isPattern`: whether a text is a value
-/

namespace LinearLight.Log

def unsigned : List Char → List Char
  | '+' :: rest => rest
  | '-' :: rest => rest
  | text => text

def isDigits (text : List Char) : Bool := !text.isEmpty && text.all Char.isDigit

/-- Whether a text is nothing or an exponent. -/
def isScale : List Char → Bool
  | [] => true
  | c :: digits => (c = 'e' || c = 'E') && isDigits (unsigned digits)

/-- Whether a text is a decimal number, with a sign, a point and an exponent where wanted, or the
name of something that is not finite. -/
def isNumber (text : List Char) : Bool :=
  let number := unsigned text
  let word := String.ofList (number.map Char.toLower)
  let (whole, rest) := number.span Char.isDigit
  word = "inf" || word = "infinity" || word = "nan" ||
    match rest with
    | '.' :: rest =>
      let (fraction, scale) := rest.span Char.isDigit
      isDigits (whole ++ fraction) && isScale scale
    | scale => isDigits whole && isScale scale

def isPattern (text : List Char) : Bool := isNumber text || isExpression text

end LinearLight.Log
