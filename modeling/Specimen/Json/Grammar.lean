/-
# Specimen.Json.Grammar — arrays and objects.

How elements and fields are separated is the same whatever they are, so the readers here are given
the reader of a single element, or of what follows a field's name.  Each step takes some of the
text; the number that bounds the steps is never reached when it is at least the length of the text.
-/
import Specimen.Json.Lexeme

namespace Specimen.Json

/-! ## Arrays -/

/-- Reads the elements behind an element, up to the closing bracket. -/
def readMoreElements (element : List Char → Except Fault (α × List Char)) :
    (steps : Nat) → List Char → Except Fault (List α × List Char)
  | 0, _ => .error .malformed
  | steps + 1, cs =>
    match skipBlanks cs with
    | [] => .error .truncated
    | ']' :: rest => .ok ([], rest)
    | ',' :: rest =>
      match element rest with
      | .error fault => .error fault
      | .ok (value, rest) =>
        match readMoreElements element steps rest with
        | .error fault => .error fault
        | .ok (values, rest) => .ok (value :: values, rest)
    | _ => .error .malformed

/-- Reads an array from behind its opening bracket. -/
def readElements (element : List Char → Except Fault (α × List Char)) (steps : Nat)
    (cs : List Char) : Except Fault (List α × List Char) :=
  match skipBlanks cs with
  | [] => .error .truncated
  | ']' :: rest => .ok ([], rest)
  | rest =>
    match element rest with
    | .error fault => .error fault
    | .ok (value, rest) =>
      match readMoreElements element steps rest with
      | .error fault => .error fault
      | .ok (values, rest) => .ok (value :: values, rest)

/-! ## Objects -/

/-- Reads the colon behind a name. -/
def readColon (cs : List Char) : Except Fault (List Char) :=
  match skipBlanks cs with
  | [] => .error .truncated
  | ':' :: rest => .ok rest
  | _ => .error .malformed

/-- Reads a field from behind the opening quote of its name, and the fields after it, up to the
closing bracket.  What follows a name is read by `field`, which hands on what was gathered. -/
def readFieldsFrom (care : Care)
    (field : σ → String → List Char → Except Fault (σ × List Char)) :
    (steps : Nat) → σ → List Char → Except Fault (σ × List Char)
  | 0, _, _ => .error .malformed
  | steps + 1, gathered, cs =>
    match readString care cs with
    | .error fault => .error fault
    | .ok (name, rest) =>
      match field gathered name rest with
      | .error fault => .error fault
      | .ok (gathered, rest) =>
        match skipBlanks rest with
        | [] => .error .truncated
        | '}' :: rest => .ok (gathered, rest)
        | ',' :: rest =>
          match skipBlanks rest with
          | [] => .error .truncated
          | '"' :: rest => readFieldsFrom care field steps gathered rest
          | _ => .error .malformed
        | _ => .error .malformed

/-- Reads an object from behind its opening bracket. -/
def readFields (care : Care) (field : σ → String → List Char → Except Fault (σ × List Char))
    (steps : Nat) (gathered : σ) (cs : List Char) : Except Fault (σ × List Char) :=
  match skipBlanks cs with
  | [] => .error .truncated
  | '}' :: rest => .ok (gathered, rest)
  | '"' :: rest => readFieldsFrom care field steps gathered rest
  | _ => .error .malformed

end Specimen.Json
