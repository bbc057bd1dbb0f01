/-
# Specimen.CommandLine.Run — what the program answers.

The answer of a run is its exit code, what it prints, and the failure it reports if there is one.
It depends on nothing but the command line and the files.

`parse` prints one line of JSON in any case: the tree, or an object that holds the error.  `extract`
prints the source of a block and `index` the index as indented JSON; what goes wrong there is
reported apart, and then nothing is printed.
-/
import Specimen.CommandLine.Arguments
import Specimen.Config.Reader
import Specimen.Index
import Specimen.Template.Json

namespace Specimen.CommandLine

open Json Template

/-! ## Answers -/

/-- The name under which the program reports. -/
def programName : String := "styleguide-core"

/-- The version of the program. -/
def programVersion : String := "0.6.0"

/-- What stopped a command. -/
inductive Failure where
  | config (error : ConfigError)
  | extract (error : ExtractError)
  deriving DecidableEq, Repr

/-- The failure in words. -/
def Failure.message : Failure → String
  | config error => error.message
  | extract error => error.message

/-- The answer of a run. -/
inductive Outcome where
  /-- The usage is explained, because that was asked for or because it was needed. -/
  | usage (asked : Bool)
  /-- The command is done, with an exit code and what it prints. -/
  | printed (code : Nat) (output : String)
  /-- The command has failed. -/
  | failed (failure : Failure)
  deriving DecidableEq, Repr

namespace Outcome

/-- The exit code: zero for success, one for a failure and two for misuse. -/
def code : Outcome → Nat
  | usage true => 0
  | usage false => 2
  | printed code _ => code
  | failed _ => 1

/-- What goes to standard output, explanations of the usage left out. -/
def output : Outcome → String
  | printed _ output => output
  | _ => ""

/-- The failure that is reported, under the name of the program. -/
def report? : Outcome → Option String
  | failed failure => some s!"{programName}: {failure.message}"
  | _ => none

end Outcome

/-! ## Commands -/

/-- The settings of an invocation. -/
def Invocation.loadConfig (source : Source) (invocation : Invocation) :
    Except ConfigError Config :=
  match invocation.config with
  | none => .ok {}
  | some path => Config.load source path

/-- The line that `parse` prints for a template it cannot give. -/
def errorLine (error : ExtractError) : String :=
  String.ofList (Value.object [("error", .string error.message)]).compact ++ "\n"

/-- Parses a template. -/
def runParse (source : Source) (file : Path) : Outcome :=
  match ((Cache.template source file).run.run {}).1 with
  | .ok root => .printed 0 (root.toJsonText ++ "\n")
  | .error error => .printed 1 (errorLine error)

/-- Extracts a block, at the line that was given or else where it stands. -/
def runExtract (source : Source) (config : Config) (file : Path) (query : CallSite.Query)
    (startLine : Option Nat) : Outcome :=
  let work : Caching String :=
    match startLine with
    | some line => extractFrom source config file line query
    | none => return (← extract source config file query).source
  match (work.run.run {}).1 with
  | .ok text => .printed 0 text
  | .error error => .failed (.extract error)

/-- Lists the sections below a directory. -/
def runIndex (source : Source) (config : Config) (root : Path) (withSource : Bool) : Outcome :=
  let (index, cache) := (Index.build source config root).run {}
  if withSource then
    match ((index.load source config).run cache).1 with
    | (some error, _) => .failed (.extract error)
    | (none, index) => .printed 0 (index.toJsonText ++ "\n")
  else .printed 0 (index.toJsonText ++ "\n")

/-- Carries out an invocation.  Settings that cannot be loaded stop every command. -/
def Invocation.run (source : Source) (invocation : Invocation) : Outcome :=
  match invocation.loadConfig source with
  | .error error => .failed (.config error)
  | .ok config =>
    match invocation.command with
    | .parse file => runParse source file
    | .extract file argument method startLine =>
      runExtract source config file ⟨method.getD config.method, argument⟩ startLine
    | .index root withSource => runIndex source config root withSource

/-- Answers a command line. -/
def run (source : Source) (words : List String) : Outcome :=
  match Invocation.ofArguments words with
  | .ok invocation => invocation.run source
  | .error .help => .usage true
  | .error .version => .printed 0 s!"{programName} {programVersion}\n"
  | .error .misuse => .usage false

end Specimen.CommandLine
