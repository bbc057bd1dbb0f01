/-
# Specimen.Main — the program.

The answer to a command line depends on the files alone, so the program first finds out which files
the command concerns, reads those, and hands them over as a source.  Nothing is decided here.
-/
import Specimen.CommandLine.Run

namespace Specimen.Main

open CommandLine

/-- How the command line is used. -/
def usage : String :=
  "Extracts the example sources of a style guide.

Usage: styleguide-core [OPTIONS] <COMMAND>

Commands:
  parse FILE                   Print the tree of a template as JSON
  extract FILE ARGUMENT        Print the source of a block
      --method NAME            The method that is called, in place of the configured one
      --start-line N           The first line to print, in place of the block's own
  index DIR                    Print all sections below a directory as JSON
      --with-source            Print their sources too
  help [COMMAND]               Print this message

Options:
      --config FILE            Read the settings from a JSON file
  -v, --verbose                Accepted; nothing is logged
  -h, --help                   Print this message
  -V, --version                Print the version
"

/-- The number of a system error.  Some calls give its negative, as a 32-bit word. -/
def errorNumber (code : UInt32) : UInt32 := if code < 0x80000000 then code else 0 - code

/-- A system error with its number, as a reason why a file cannot be read. -/
def numberedError (code : UInt32) (details : String) : ReadError :=
  match errorNumber code with
  | 2 => .notFound
  | 20 => .notDirectory
  | 21 => .isDirectory
  | 36 => .nameTooLong
  | number => .system s!"{details} (os error {number})"

/-- A system error, as a reason why a file cannot be read. -/
def readError : IO.Error → ReadError
  | .noFileOrDirectory _ code details => numberedError code details
  | .inappropriateType _ code details => numberedError code details
  | .invalidArgument _ code details => numberedError code details
  | .permissionDenied _ code details => numberedError code details
  | other => .system other.toString

/-- Reads a file. -/
def readFile (path : Path) : IO (Path × Except ReadError String) := do
  if '\x00' ∈ path.text.toList then return (path, .error .nulInName)
  if path.text = "" then return (path, .error .notFound)
  match ← (IO.FS.readBinFile path.text).toBaseIO with
  | .ok bytes => return (path, decodeText bytes)
  | .error fault => return (path, .error (readError fault))

/-- What has been read, as a source. -/
def sourceOf (texts : List (Path × Except ReadError String)) (files : List Path) : Source where
  read path := (texts.lookup path).getD (.error .notFound)
  filesBelow _ := files

/-- A path in the form in which the system takes it, without any change to its text. -/
def place (path : Path) := (⟨path.text, ""⟩ : IO.FS.DirEntry).root

/-- The regular files at or below a path.  Links to directories are not followed, and what the
system cannot look at under its joined path is left out. -/
partial def filesBelow (path : Path) (isRoot : Bool) : IO (List Path) := do
  let kind ← (if isRoot then (place path).metadata else (place path).symlinkMetadata).toBaseIO
  match kind with
  | .error _ => return []
  | .ok kind =>
    match kind.type with
    | .dir =>
      match ← (place path).readDir.toBaseIO with
      | .error _ => return []
      | .ok entries =>
        let below ← entries.toList.mapM fun entry => filesBelow (path.join entry.fileName) false
        return below.flatten
    | .file => return [path]
    | .symlink =>
      match ← (place path).metadata.toBaseIO with
      | .ok target => return if target.type == .file then [path] else []
      | .error _ => return []
    | .other => return []

/-- Reads the files that an invocation concerns. -/
def observe (invocation : Invocation) : IO Source := do
  let settings ← invocation.config.toList.mapM readFile
  match invocation.command with
  | .parse file => return sourceOf (settings ++ [← readFile file]) []
  | .extract file _ _ _ => return sourceOf (settings ++ [← readFile file]) []
  | .index root _ =>
    let files ← if root.text = "" then pure [] else filesBelow root true
    let listed := sourceOf settings files
    match invocation.loadConfig listed with
    | .error _ => return listed
    | .ok config =>
      let texts ← (findTemplates listed config root).mapM readFile
      return sourceOf (settings ++ texts) files

/-- Prints an outcome and gives its exit code. -/
def report (outcome : Outcome) : IO UInt32 := do
  match outcome with
  | .usage true => IO.print usage
  | .usage false => IO.eprint usage
  | _ => IO.print outcome.output
  if let some line := outcome.report? then IO.eprintln line
  return outcome.code.toUInt32

end Specimen.Main

/-- Answers the command line with the files of the current directory. -/
def main (words : List String) : IO UInt32 := do
  let source ← match Specimen.CommandLine.Invocation.ofArguments words with
    | .ok invocation => Specimen.Main.observe invocation
    | .error _ => pure (Specimen.Main.sourceOf [] [])
  Specimen.Main.report (Specimen.CommandLine.run source words)
