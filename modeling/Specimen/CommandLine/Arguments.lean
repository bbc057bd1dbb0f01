/-
# Specimen.CommandLine.Arguments — what a command line asks for.

    [options] parse FILE
    [options] extract FILE ARGUMENT [--method NAME] [--start-line N]
    [options] index DIR [--with-source]
    help [COMMAND]

The options `--config FILE` and `-v`, `--verbose` may stand on either side of the command; so may the
requests for help, while the one for the version stands before it.  Words are taken from left to
right.  An option is written out in full, its value in the same word behind an equals sign or in the
next word; single letters may share a word.  No word that begins with a dash is a value, except a
lone dash.  After two dashes all words are operands.

The first thing that is wrong, or that asks for help or the version, ends it.  A value in a word of
its own is looked at when the next option or operand is met, or else when the command is complete.
-/
import Specimen.Path

namespace Specimen.CommandLine

/-! ## What can be asked -/

/-- The commands. -/
inductive Command where
  | parse (file : Path)
  | extract (file : Path) (argument : String) (method : Option String) (startLine : Option Nat)
  | index (root : Path) (withSource : Bool)
  deriving DecidableEq, Repr

/-- A command and the settings file to use with it. -/
structure Invocation where
  config : Option Path
  command : Command
  deriving DecidableEq, Repr

/-- Why a command line is no invocation. -/
inductive Halt where
  /-- Help is asked for. -/
  | help
  /-- The version is asked for. -/
  | version
  /-- The words make no sense. -/
  | misuse
  deriving DecidableEq, Repr

/-! ## Options -/

/-- The options that take a value. -/
inductive Setting where
  | config
  | method
  | startLine
  deriving DecidableEq, Repr

/-- The options that do not. -/
inductive Switch where
  | verbose
  | withSource
  | help
  | version
  deriving DecidableEq, Repr

/-- An option of either kind. -/
inductive AnyOption where
  | setting (setting : Setting)
  | switch (switch : Switch)
  deriving DecidableEq, Repr

/-- Where a word stands: in front of the command, or behind it. -/
inductive Level where
  | front
  | parse
  | extract
  | index
  deriving DecidableEq, Repr

namespace Level

/-- The command with this name. -/
def ofName? : String → Option Level
  | "parse" => some .parse
  | "extract" => some .extract
  | "index" => some .index
  | _ => none

/-- How many operands a command takes. -/
def operands : Level → Nat
  | front => 0
  | parse => 1
  | extract => 2
  | index => 1

/-- The option that is written out like this. -/
def long? (level : Level) (name : String) : Option AnyOption :=
  match name with
  | "config" => some (.setting .config)
  | "verbose" => some (.switch .verbose)
  | "help" => some (.switch .help)
  | "version" => if level = front then some (.switch .version) else none
  | "method" => if level = extract then some (.setting .method) else none
  | "start-line" => if level = extract then some (.setting .startLine) else none
  | "with-source" => if level = index then some (.switch .withSource) else none
  | _ => none

/-- The option that has this letter. -/
def short? (level : Level) (letter : Char) : Option Switch :=
  match letter with
  | 'v' => some .verbose
  | 'h' => some .help
  | 'V' => if level = front then some .version else none
  | _ => none

end Level

/-! ## Values -/

/-- A path that is given as a value or operand; it cannot be empty. -/
def path? (word : String) : Option Path := if word = "" then none else some ⟨word⟩

/-- The natural number of 64 bits that is written, possibly with a plus sign in front. -/
def natural? (word : String) : Option Nat :=
  let digits := match word.toList with
    | '+' :: rest => rest
    | rest => rest
  if digits ≠ [] ∧ digits.all Char.isDigit then
    let n := Nat.ofDigitChars 10 digits 0
    if n < UInt64.size then some n else none
  else none

/-- What was given on one side of the command. -/
structure Given where
  config : Option Path := none
  method : Option String := none
  startLine : Option Nat := none
  withSource : Bool := false
  operands : List String := []
  deriving DecidableEq, Repr

/-- Fills a place that may be filled once. -/
def once (before : Option α) (value : Option α) : Except Halt (Option α) :=
  match before, value with
  | none, some value => .ok (some value)
  | _, _ => .error .misuse

/-- Takes in the value of an option. -/
def Given.set (given : Given) (setting : Setting) (word : String) : Except Halt Given :=
  match setting with
  | .config => (once given.config (path? word)).map fun config => { given with config }
  | .method => (once given.method (some word)).map fun method => { given with method }
  | .startLine =>
    (once given.startLine (natural? word)).map fun startLine => { given with startLine }

/-- Takes in an option without value. -/
def Given.switch (given : Given) : Switch → Except Halt Given
  | .verbose => .ok given
  | .withSource => if given.withSource then .error .misuse else .ok { given with withSource := true }
  | .help => .error .help
  | .version => .error .version

/-- Takes in an operand.  The first operand of every command is a path. -/
def Given.operand (given : Given) (level : Level) (word : String) : Except Halt Given :=
  if given.operands.length < level.operands ∧ (given.operands = [] → word ≠ "") then
    .ok { given with operands := given.operands ++ [word] }
  else .error .misuse

/-! ## Words -/

/-- A value that is still to come or to be looked at. -/
inductive Pending where
  | nothing
  /-- The next word is the value. -/
  | awaited (setting : Setting)
  /-- The value was in a word of its own. -/
  | unchecked (setting : Setting) (word : String)
  deriving DecidableEq, Repr

/-- A command line as far as it has been read on one side of the command. -/
structure Progress where
  given : Given := {}
  pending : Pending := .nothing
  deriving DecidableEq, Repr

namespace Progress

/-- Looks at the value that is pending. -/
def settle (progress : Progress) : Except Halt Given :=
  match progress.pending with
  | .nothing => .ok progress.given
  | .awaited _ => .error .misuse
  | .unchecked setting word => progress.given.set setting word

/-- Reads the letters of a word, one option after the other. -/
def letters (level : Level) (given : Given) : List Char → Except Halt Given
  | [] => .ok given
  | letter :: rest =>
    match level.short? letter with
    | none => .error .misuse
    | some switch =>
      match given.switch switch with
      | .error halt => .error halt
      | .ok given => letters level given rest

/-- Reads an option that is written out, from behind its dashes. -/
def longOption (level : Level) (given : Given) (word : List Char) : Except Halt Progress :=
  let name := String.ofList (word.takeWhile (· ≠ '='))
  match level.long? name, word.dropWhile (· ≠ '=') with
  | some (.switch switch), [] => (given.switch switch).map fun given => { given }
  | some (.setting setting), [] => .ok { given, pending := .awaited setting }
  | some (.setting setting), _ :: value =>
    (given.set setting (String.ofList value)).map fun given => { given }
  | _, _ => .error .misuse

/-- Whether a word is read as options. -/
def isOption : List Char → Bool
  | '-' :: _ :: _ => true
  | _ => false

/-- Reads a word that begins with a dash. -/
def option (level : Level) (progress : Progress) (word : List Char) : Except Halt Progress := do
  let given ← progress.settle
  match word with
  | '-' :: '-' :: rest => longOption level given rest
  | _ => (letters level given word.tail).map fun given => { given }

/-- Reads the words in front of the command; gives the command and the words behind it. -/
def front (progress : Progress) : List String → Except Halt (Progress × List String)
  | [] => .ok (progress, [])
  | word :: rest =>
    if word = "--" then .error .misuse
    else if isOption word.toList then
      match progress.option .front word.toList with
      | .error halt => .error halt
      | .ok progress => front progress rest
    else
      match progress.pending with
      | .awaited setting => front { progress with pending := .unchecked setting word } rest
      | _ => .ok (progress, word :: rest)

/-- Reads the words behind the command. -/
def behind (level : Level) (progress : Progress) : List String → Except Halt Given
  | [] => progress.settle
  | word :: rest =>
    if word = "--" then do
      rest.foldlM (fun given word => given.operand level word) (← progress.settle)
    else if isOption word.toList then
      match progress.option level word.toList with
      | .error halt => .error halt
      | .ok progress => behind level progress rest
    else
      match progress.pending with
      | .awaited setting => behind level { progress with pending := .unchecked setting word } rest
      | _ =>
        match progress.settle with
        | .error halt => .error halt
        | .ok given =>
          match given.operand level word with
          | .error halt => .error halt
          | .ok given => behind level { given } rest

end Progress

/-! ## Whole command lines -/

/-- The command that operands and options make. -/
def Given.command (given : Given) : Level → Except Halt Command
  | .parse =>
    match given.operands with
    | [file] => .ok (.parse ⟨file⟩)
    | _ => .error .misuse
  | .extract =>
    match given.operands with
    | [file, argument] => .ok (.extract ⟨file⟩ argument given.method given.startLine)
    | _ => .error .misuse
  | .index =>
    match given.operands with
    | [root] => .ok (.index ⟨root⟩ given.withSource)
    | _ => .error .misuse
  | .front => .error .misuse

/-- Help may be asked for by name, for the whole or for one command. -/
def helpOn : List String → Halt
  | [] => .help
  | [word] => if word = "help" ∨ (Level.ofName? word).isSome then .help else .misuse
  | _ => .misuse

/-- Reads a command line.  A settings file that is named behind the command counts before one that
is named in front of it. -/
def Invocation.ofArguments (words : List String) : Except Halt Invocation := do
  let (outer, rest) ← Progress.front {} words
  match rest with
  | [] => .error .misuse
  | name :: rest =>
    if name = "help" then .error (helpOn rest)
    else
      match Level.ofName? name with
      | none => .error .misuse
      | some level =>
        let inner ← Progress.behind level {} rest
        let command ← inner.command level
        let outer ← outer.settle
        .ok ⟨inner.config.or outer.config, command⟩

end Specimen.CommandLine
