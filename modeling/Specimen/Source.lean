/-
# Specimen.Source — where texts come from.

All that the library needs of the outside world is to read a file as text and to list the files
below a directory.  A source answers both, and it answers the same question always in the same way;
when files change, the source is another one.
-/
import Specimen.Path

namespace Specimen

/-- Why a file cannot be read. -/
inductive ReadError where
  | notFound
  | isDirectory
  /-- A path leads through something that is no directory. -/
  | notDirectory
  | nameTooLong
  /-- The path holds a character that no file name can hold. -/
  | nulInName
  /-- The contents are not text. -/
  | invalidText
  /-- There is no such entry among templates that are kept in memory. -/
  | noSuchTemplate
  /-- Anything else that the system reports. -/
  | system (text : String)
  deriving DecidableEq, Repr

/-- The error in words. -/
def ReadError.message : ReadError → String
  | notFound => "No such file or directory (os error 2)"
  | isDirectory => "Is a directory (os error 21)"
  | notDirectory => "Not a directory (os error 20)"
  | nameTooLong => "File name too long (os error 36)"
  | nulInName => "file name contained an unexpected NUL byte"
  | invalidText => "stream did not contain valid UTF-8"
  | noSuchTemplate => "no such template"
  | system text => text

/-- The files that can be read. -/
structure Source where
  /-- The contents of a file, as text. -/
  read : Path → Except ReadError String
  /-- The regular files at or below a path, each as that path with names joined to it. -/
  filesBelow : Path → List Path

/-- Contents as text, if they are UTF-8. -/
def decodeText (bytes : ByteArray) : Except ReadError String :=
  match String.fromUTF8? bytes with
  | some text => .ok text
  | none => .error .invalidText

end Specimen
