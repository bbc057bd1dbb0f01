/-
# Specimen.Config.Reader — settings from a JSON file.

Settings are an object with the fields `method`, `indent_width` and `extensions`.  Each may be left
out and then has its default; none may stand twice.  Other fields are passed over.  An array gives
the same three by position, and trailing ones may be left out.

A text is read from left to right and the first fault counts.  A value of another type than the one
asked for is a mismatch as soon as it is plain that it is of another type: at the bracket of an array
or object, and at the end of anything else, which may still turn out to be malformed.
-/
import Specimen.Config
import Specimen.Json.Reader
import Specimen.Source

namespace Specimen

open Json

namespace Config

/-! ## Values of a given type -/

/-- The fault of a value, beginning here, that is not of the type asked for. -/
def otherType (cs : List Char) : Fault :=
  let fault := fun (read : Except Fault (List Char)) =>
    match read with
    | .error fault => fault
    | .ok _ => .mismatch
  match cs with
  | [] => .truncated
  | 'n' :: rest => fault (readWord ['u', 'l', 'l'] rest)
  | 't' :: rest => fault (readWord ['r', 'u', 'e'] rest)
  | 'f' :: rest => fault (readWord ['a', 'l', 's', 'e'] rest)
  | '"' :: rest => fault ((readString .wanted rest).map (·.2))
  | '[' :: _ => .mismatch
  | '{' :: _ => .mismatch
  | c :: rest =>
    if c = '-' ∨ c.isDigit then fault ((readNumeral .wanted (c :: rest)).map (·.2))
    else .malformed

/-- Reads a string. -/
def readText (cs : List Char) : Except Fault (String × List Char) :=
  match skipBlanks cs with
  | '"' :: rest => readString .wanted rest
  | rest => .error (otherType rest)

/-- Reads a natural number of 64 bits. -/
def readNatural (cs : List Char) : Except Fault (Nat × List Char) :=
  match skipBlanks cs with
  | [] => .error .truncated
  | c :: rest =>
    if c = '-' ∨ c.isDigit then
      match readNumeral .wanted (c :: rest) with
      | .error fault => .error fault
      | .ok (numeral, rest) =>
        match numeral.natural? with
        | some n => .ok (n, rest)
        | none => .error .mismatch
    else .error (otherType (c :: rest))

/-- Reads an array of strings. -/
def readTexts (cs : List Char) : Except Fault (List String × List Char) :=
  match skipBlanks cs with
  | '[' :: rest => readElements readText (rest.length + 1) rest
  | rest => .error (otherType rest)

/-! ## Settings as given -/

/-- The settings that a text gives. -/
structure Given where
  method : Option String := none
  indentWidth : Option Nat := none
  extensions : Option (List String) := none
  deriving DecidableEq, Repr

/-- The settings with the defaults in place of what was not given. -/
def Given.complete (given : Given) : Config :=
  let default : Config := {}
  { method := given.method.getD default.method
    indentWidth := given.indentWidth.getD default.indentWidth
    extensions := given.extensions.getD default.extensions }

/-! ## By name -/

/-- Reads what follows the name of a setting, unless the setting was given before. -/
def readOnce (before : Option α) (value : List Char → Except Fault (α × List Char))
    (cs : List Char) : Except Fault (α × List Char) :=
  if before.isSome then .error .mismatch else (readColon cs).bind value

/-- Reads what follows the name of a field. -/
def readSetting (given : Given) (name : String) (cs : List Char) :
    Except Fault (Given × List Char) :=
  if name = "method" then
    (readOnce given.method readText cs).map fun (text, rest) =>
      ({ given with method := some text }, rest)
  else if name = "indent_width" then
    (readOnce given.indentWidth readNatural cs).map fun (n, rest) =>
      ({ given with indentWidth := some n }, rest)
  else if name = "extensions" then
    (readOnce given.extensions readTexts cs).map fun (texts, rest) =>
      ({ given with extensions := some texts }, rest)
  else ((readColon cs).bind skipValue).map fun rest => (given, rest)

/-! ## By position -/

/-- What stands before an element of an array: the text of the element, or the text behind the
bracket that closes the array. -/
inductive Next where
  | element (rest : List Char)
  | closed (rest : List Char)

/-- Looks for the first element. -/
def firstElement (cs : List Char) : Except Fault Next :=
  match skipBlanks cs with
  | [] => .error .truncated
  | ']' :: rest => .ok (.closed rest)
  | rest => .ok (.element rest)

/-- Looks for the element after another one. -/
def nextElement (cs : List Char) : Except Fault Next :=
  match skipBlanks cs with
  | [] => .error .truncated
  | ']' :: rest => .ok (.closed rest)
  | ',' :: rest =>
    match skipBlanks rest with
    | [] => .error .truncated
    | ']' :: _ => .error .malformed
    | rest => .ok (.element rest)
  | _ => .error .malformed

/-- The end of an array that holds no more elements. -/
def closeArray (cs : List Char) : Except Fault (List Char) :=
  match skipBlanks cs with
  | [] => .error .truncated
  | ']' :: rest => .ok rest
  | _ => .error .malformed

/-- Reads settings by position, from behind the opening bracket. -/
def readByPosition (cs : List Char) : Except Fault (Given × List Char) := do
  match ← firstElement cs with
  | .closed rest => pure ({}, rest)
  | .element rest =>
    let (method, rest) ← readText rest
    match ← nextElement rest with
    | .closed rest => pure ({ method }, rest)
    | .element rest =>
      let (width, rest) ← readNatural rest
      match ← nextElement rest with
      | .closed rest => pure ({ method, indentWidth := width }, rest)
      | .element rest =>
        let (extensions, rest) ← readTexts rest
        let rest ← closeArray rest
        pure ({ method, indentWidth := width, extensions }, rest)

/-! ## Whole texts -/

/-- Reads settings. -/
def readGiven (cs : List Char) : Except Fault (Given × List Char) :=
  match skipBlanks cs with
  | '{' :: rest => readFields .wanted readSetting (rest.length + 1) {} rest
  | '[' :: rest => readByPosition rest
  | rest => .error (otherType rest)

/-- The settings that a text describes. -/
def ofJsonText (text : String) : Except Fault Config :=
  match readGiven text.toList with
  | .error fault => .error fault
  | .ok (given, rest) => (readEnd rest).map fun _ => given.complete

end Config

/-! ## Files -/

/-- Why settings cannot be loaded. -/
inductive ConfigError where
  | read (path : Path) (fault : ReadError)
  | invalid (path : Path) (fault : Fault)
  deriving DecidableEq, Repr

/-- Loads settings from a file. -/
def Config.load (source : Source) (path : Path) : Except ConfigError Config :=
  match source.read path with
  | .error fault => .error (.read path fault)
  | .ok text =>
    match ofJsonText text with
    | .error fault => .error (.invalid path fault)
    | .ok config => .ok config

/-- The error in words.  Of a text that is not settings it tells no more than the kind of fault. -/
def ConfigError.message : ConfigError → String
  | read path fault => s!"Failed to read config `{path}`: {fault.message}"
  | invalid path .malformed => s!"Invalid config `{path}`: malformed JSON"
  | invalid path .truncated => s!"Invalid config `{path}`: unexpected end of JSON"
  | invalid path .mismatch => s!"Invalid config `{path}`: unexpected value"

end Specimen
