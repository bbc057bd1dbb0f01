/-
# Specimen.Json.Reader — JSON values from text.

A value is read by its first character.  Arrays and objects may be nested up to a depth that the
caller sets; a text as a whole is one value with white space around it.
-/
import Specimen.Json.Grammar

namespace Specimen.Json

/-- Reads a value.  `steps` bounds the length of the reading and `depth` the arrays and objects
that may still be opened. -/
def readValue (care : Care) : (steps depth : Nat) → List Char → Except Fault (Value × List Char)
  | 0, _, _ => .error .malformed
  | steps + 1, depth, cs =>
    match skipBlanks cs with
    | [] => .error .truncated
    | 'n' :: rest => (readWord ['u', 'l', 'l'] rest).map fun rest => (.null, rest)
    | 't' :: rest => (readWord ['r', 'u', 'e'] rest).map fun rest => (.bool true, rest)
    | 'f' :: rest => (readWord ['a', 'l', 's', 'e'] rest).map fun rest => (.bool false, rest)
    | '"' :: rest => (readString care rest).map fun (text, rest) => (.string text, rest)
    | '[' :: rest =>
      match depth with
      | 0 => .error .malformed
      | depth + 1 =>
        (readElements (readValue care steps depth) steps rest).map fun (values, rest) =>
          (.array values, rest)
    | '{' :: rest =>
      match depth with
      | 0 => .error .malformed
      | depth + 1 =>
        let field := fun fields name rest =>
          match readColon rest with
          | .error fault => .error fault
          | .ok rest =>
            (readValue care steps depth rest).map fun (value, rest) => ((name, value) :: fields, rest)
        (readFields care field steps [] rest).map fun (fields, rest) =>
          (.object fields.reverse, rest)
    | c :: rest =>
      if c = '-' ∨ c.isDigit then
        (readNumeral care (c :: rest)).map fun (numeral, rest) => (.number numeral, rest)
      else .error .malformed

/-- Passes over a value that nobody asks for; it may be nested to any depth. -/
def skipValue (cs : List Char) : Except Fault (List Char) :=
  (readValue .skipped (cs.length + 1) cs.length cs).map (·.2)

/-- The end of a text: nothing but white space. -/
def readEnd (cs : List Char) : Except Fault Unit :=
  if skipBlanks cs = [] then .ok () else .error .malformed

namespace Value

/-- How deep arrays and objects may be nested in a text that is read as a value. -/
def depthLimit : Nat := 127

/-- Reads a text that is one value. -/
def read (text : String) : Except Fault Value := do
  let cs := text.toList
  let (value, rest) ← readValue .wanted (cs.length + 1) depthLimit cs
  readEnd rest
  .ok value

end Value

end Specimen.Json
