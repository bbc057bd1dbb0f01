/-
# Specimen.Json.Writer — JSON values as text.

There are two layouts.  The compact one has no space at all.  The indented one puts every element
and every field on a line of its own, two blanks deeper than the brackets around it, and a blank
behind each colon; an empty array or object stays on one line.

In strings the quote, the backslash and the control characters below the blank are escaped, by a
letter where there is one and else by four hexadecimal digits in lower case.  All other characters
are written as they are.
-/
import Specimen.Json.Value

namespace Specimen.Json

/-! ## Strings and numbers -/

/-- One character inside a string. -/
def escapeChar (c : Char) : List Char :=
  if c = '"' then ['\\', '"']
  else if c = '\\' then ['\\', '\\']
  else if c = '\x08' then ['\\', 'b']
  else if c = '\x0c' then ['\\', 'f']
  else if c = '\n' then ['\\', 'n']
  else if c = '\r' then ['\\', 'r']
  else if c = '\t' then ['\\', 't']
  else if c < ' ' then
    ['\\', 'u', '0', '0', Nat.digitChar (c.toNat / 16), Nat.digitChar (c.toNat % 16)]
  else [c]

/-- A string between its quotes. -/
def quoted (text : String) : List Char := '"' :: (text.toList.flatMap escapeChar ++ ['"'])

/-- A number as it is written. -/
def Numeral.text (numeral : Numeral) : List Char :=
  (if numeral.negative then ['-'] else []) ++ numeral.whole ++
    (match numeral.fraction with
      | none => []
      | some digits => '.' :: digits) ++
    (match numeral.exponent with
      | none => []
      | some power => 'e' :: (toString power).toList)

namespace Value

/-! ## Compact layout -/

mutual

/-- A value without any space. -/
def compact : Value → List Char
  | null => ['n', 'u', 'l', 'l']
  | bool true => ['t', 'r', 'u', 'e']
  | bool false => ['f', 'a', 'l', 's', 'e']
  | number numeral => numeral.text
  | string text => quoted text
  | array [] => ['[', ']']
  | array (value :: values) => '[' :: (compact value ++ compactElements values)
  | object [] => ['{', '}']
  | object ((name, value) :: fields) =>
    '{' :: (quoted name ++ ':' :: (compact value ++ compactFields fields))

/-- The elements after the first, and the bracket that closes the array. -/
def compactElements : List Value → List Char
  | [] => [']']
  | value :: values => ',' :: (compact value ++ compactElements values)

/-- The fields after the first, and the bracket that closes the object. -/
def compactFields : List (String × Value) → List Char
  | [] => ['}']
  | (name, value) :: fields =>
    ',' :: (quoted name ++ ':' :: (compact value ++ compactFields fields))

end

/-! ## Indented layout -/

/-- A line end and the indentation of the next line. -/
def newline (depth : Nat) : List Char := '\n' :: List.replicate (2 * depth) ' '

mutual

/-- A value over several lines; `depth` is the depth of the brackets around it. -/
def indented (depth : Nat) : Value → List Char
  | null => ['n', 'u', 'l', 'l']
  | bool true => ['t', 'r', 'u', 'e']
  | bool false => ['f', 'a', 'l', 's', 'e']
  | number numeral => numeral.text
  | string text => quoted text
  | array [] => ['[', ']']
  | array (value :: values) =>
    '[' :: (newline (depth + 1) ++ indented (depth + 1) value ++ indentedElements depth values)
  | object [] => ['{', '}']
  | object ((name, value) :: fields) =>
    '{' :: (newline (depth + 1) ++ quoted name ++ ':' :: ' ' ::
      (indented (depth + 1) value ++ indentedFields depth fields))

/-- The elements after the first, and the bracket that closes the array. -/
def indentedElements (depth : Nat) : List Value → List Char
  | [] => newline depth ++ [']']
  | value :: values =>
    ',' :: (newline (depth + 1) ++ indented (depth + 1) value ++ indentedElements depth values)

/-- The fields after the first, and the bracket that closes the object. -/
def indentedFields (depth : Nat) : List (String × Value) → List Char
  | [] => newline depth ++ ['}']
  | (name, value) :: fields =>
    ',' :: (newline (depth + 1) ++ quoted name ++ ':' :: ' ' ::
      (indented (depth + 1) value ++ indentedFields depth fields))

end

end Value

end Specimen.Json
