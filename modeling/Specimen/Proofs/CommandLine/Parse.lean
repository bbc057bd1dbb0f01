/-
# Specimen.Proofs.CommandLine.Parse — one line of JSON, whatever happens.

The command that parses a template answers in JSON on one line, and reports nothing beside it.  The
line is the tree, or an object that holds the error in words.  Both are written without any space, so
a line end in a name or in a message is escaped like any other control character, and whoever reads
the line gets the tree or the message as it was.
-/
import Specimen.CommandLine.Run
import Specimen.Disk
import Specimen.Proofs.Cache.Template
import Specimen.Proofs.CommandLine.Arguments
import Specimen.Proofs.Json.Spelling
import Specimen.Proofs.Template.RoundTrip

namespace Specimen.CommandLine

open Json Template

/-! ## What a line says -/

/-- A line without control characters that is a JSON object. -/
structure IsJsonLine (line : String) : Prop where
  oneLine : IsOneLine line.toList
  isObject : ∃ fields, Spells (.object fields) line.toList

/-- A line that holds a message, and nothing else, under the name of the error. -/
structure SaysError (message line : String) : Prop where
  spells : Spells (.object [("error", .string message)]) line.toList
  decoded : Value.read line = .ok (.object [("error", .string message)])

/-- A line that holds a tree.  It is decoded to the tree unless it is nested too deep. -/
structure SaysTree (root : Node) (line : String) : Prop where
  spells : Spells root.toJson line.toList
  decoded : Node.ofJsonText? line = some root ↔ root.toJson.nesting ≤ Value.depthLimit

/-- The exit code and the line that are the answer for a file. -/
inductive Answers (source : Source) (file : Path) : Nat → String → Prop
  | tree {text : String} {root : Node} {line : String} :
      source.read file = .ok text → parse text = .ok root → SaysTree root line →
      Answers source file 0 line
  | unread {fault : ReadError} {line : String} :
      source.read file = .error fault →
      SaysError ("Failed to read `" ++ file.text ++ "`: " ++ fault.message) line →
      Answers source file 1 line
  | unparsed {text : String} {fault : ParseError} {line : String} :
      source.read file = .ok text → parse text = .error fault →
      SaysError ("Failed to parse `" ++ file.text ++ "`: " ++ fault.message) line →
      Answers source file 1 line

theorem Answers.code_eq_zero_iff {source : Source} {file : Path} {code : Nat} {line : String}
    (answers : Answers source file code line) :
    code = 0 ↔ ∃ text root, source.read file = .ok text ∧ parse text = .ok root := by
  cases answers with
  | tree read parsed _ => exact ⟨fun _ => ⟨_, _, read, parsed⟩, fun _ => rfl⟩
  | unread failed _ =>
      refine ⟨nofun, ?_⟩
      rintro ⟨text, root, read, -⟩
      rw [failed] at read
      cases read
  | unparsed read failed _ =>
      refine ⟨nofun, ?_⟩
      rintro ⟨text, root, read', parsed⟩
      cases read.symm.trans read'
      rw [failed] at parsed
      cases parsed

/-! ## Lines that are written -/

theorem isJsonLine_of_readable {fields : List (String × Value)}
    (readable : (Value.object fields).IsReadable) :
    IsJsonLine (String.ofList (Value.object fields).compact) where
  oneLine := by
    rw [String.toList_ofList]
    exact readable.isOneLine_compact
  isObject := by
    rw [String.toList_ofList]
    exact ⟨fields, readable.spells_compact⟩

/-- A node is written as an object. -/
theorem exists_toJson_eq_object (node : Node) : ∃ fields, node.toJson = .object fields := by
  cases node with
  | lineBreak => exact ⟨_, rfl⟩
  | block head nodes => exact ⟨_, rfl⟩
  | container nodes => exact ⟨_, rfl⟩

theorem isJsonLine_toJsonText (root : Node) : IsJsonLine root.toJsonText := by
  obtain ⟨fields, form⟩ := exists_toJson_eq_object root
  rw [Node.toJsonText, form]
  exact isJsonLine_of_readable (form ▸ Node.isReadable_toJson root)

theorem saysTree_toJsonText (root : Node) : SaysTree root root.toJsonText where
  spells := by
    rw [Node.toJsonText, String.toList_ofList]
    exact (Node.isReadable_toJson root).spells_compact
  decoded := ⟨Node.nesting_le_of_ofJsonText?, Node.ofJsonText?_toJsonText⟩

/-- The object that holds an error. -/
def errorObject (message : String) : Value := .object [("error", .string message)]

theorem isReadable_errorObject (message : String) : (errorObject message).IsReadable :=
  .object (by simp [Value.IsReadable.string])

theorem saysError_compact (message : String) :
    SaysError message (String.ofList (errorObject message).compact) where
  spells := by
    rw [String.toList_ofList]
    exact (isReadable_errorObject message).spells_compact
  decoded := by
    have flat : (errorObject message).nesting = 1 := rfl
    exact (Value.read_compact_iff (isReadable_errorObject message)).mpr (flat ▸ by decide)

/-! ## The command -/

variable {source : Source}

/-- With a fresh cache the answer is the tree of the file as it stands. -/
theorem runParse_eq (source : Source) (file : Path) :
    runParse source file =
      match parseFile source file with
      | .ok root => .printed 0 (root.toJsonText ++ "\n")
      | .error error => .printed 1 (errorLine error) := by
  rw [runParse]
  cases parsed : parseFile source file with
  | ok root => rw [Cache.template_of_parsed rfl parsed]
  | error error => rw [Cache.template_of_fault rfl parsed]

theorem runParse_answers (source : Source) (file : Path) :
    ∃ code line, runParse source file = .printed code (line ++ "\n") ∧ IsJsonLine line ∧
      Answers source file code line := by
  rw [runParse_eq]
  cases read : source.read file with
  | error fault =>
      have failed : parseFile source file = .error (.read file fault) := by
        rw [parseFile, readText, read]
        rfl
      rw [failed]
      exact ⟨1, _, rfl, isJsonLine_of_readable (isReadable_errorObject _),
        .unread read (saysError_compact _)⟩
  | ok text =>
      have asParsed : parseFile source file = (parse text).mapError (.parse file) := by
        rw [parseFile, readText_eq_ok_iff.mpr read]
      rw [asParsed]
      cases parsed : parse text with
      | error fault =>
          exact ⟨1, _, rfl, isJsonLine_of_readable (isReadable_errorObject _),
            .unparsed read parsed (saysError_compact _)⟩
      | ok root =>
          exact ⟨0, _, rfl, isJsonLine_toJsonText root,
            .tree read parsed (saysTree_toJsonText root)⟩

/-- The command prints one line, which is a JSON object, and reports nothing.  It ends with code zero
exactly if the file can be read and parsed; then the line holds the tree, and else it holds the error
with the path as it stands in the command line, and the code is one. -/
theorem parse_answers {words : List String} {invocation : Invocation} {file : Path}
    {config : Config} (understood : Invocation.ofArguments words = .ok invocation)
    (asked : invocation.command = .parse file)
    (loads : invocation.loadConfig source = .ok config) :
    let outcome := run source words
    (∃ word ∈ words, file = ⟨word⟩ ∧ file.text = word) ∧ ∃ line,
      outcome.output = line ++ "\n" ∧ outcome.report? = none ∧ IsJsonLine line ∧
      (outcome.code = 0 ↔ ∃ text root, source.read file = .ok text ∧ parse text = .ok root) ∧
      Answers source file outcome.code line := by
  intro outcome
  have given : ∃ word ∈ words, file = ⟨word⟩ ∧ file.text = word := by
    have operands := Invocation.operands_subset understood
    rw [asked] at operands
    obtain ⟨word, inside, same⟩ := List.mem_map.mp (operands List.mem_cons_self)
    obtain rfl : ⟨word⟩ = file := congrArg Path.mk same
    exact ⟨word, inside, rfl, Path.text_mk word⟩
  have carried : outcome = runParse source file := by
    simp only [outcome, run, understood, Invocation.run, loads, asked]
  obtain ⟨code, line, printed, isJson, answers⟩ := runParse_answers source file
  rw [carried, printed]
  exact ⟨given, line, rfl, rfl, isJson, answers.code_eq_zero_iff, answers⟩

/-- A template whose name and code need escapes, and settings. -/
def oddDirectory : Disk :=
  (Disk.empty.put ⟨"c.json"⟩ "\x7b\x7d".toUTF8).put
    ⟨"a \"b\"\n.slim"⟩ "= \"\\\x01\r\" \t\r\n".toUTF8

/-- The line that is printed for the template is decoded to its tree.  For a name that differs in its
line end it holds a message with that name. -/
theorem parse_answers_odd :
    let words := ["--config", "c.json", "parse", "a \"b\"\n.slim"]
    let others := ["parse", "a \"b\"\r.slim"]
    let root := Node.container [.block (.call .output "\"\\\x01\r\"") [.lineBreak]]
    (∃ line, (run oddDirectory.source words).output = line ++ "\n" ∧ IsJsonLine line ∧
      (run oddDirectory.source words).code = 0 ∧ Node.ofJsonText? line = some root) ∧
    ∃ line, (run oddDirectory.source others).output = line ++ "\n" ∧ IsJsonLine line ∧
      SaysError ("Failed to read `a \"b\"\r.slim`: " ++ ReadError.notFound.message) line := by
  intro words others root
  have loads : Config.load oddDirectory.source ⟨"c.json"⟩ = .ok {} := by decide +kernel
  constructor
  · obtain ⟨-, line, output, -, isJson, success, answers⟩ :=
      @parse_answers oddDirectory.source words ⟨some ⟨"c.json"⟩, .parse ⟨"a \"b\"\n.slim"⟩⟩ _ _
        (by decide +kernel) rfl loads
    have contents : oddDirectory.source.read ⟨"a \"b\"\n.slim"⟩ =
        .ok "= \"\\\x01\r\" \t\r\n" := by
      decide +kernel
    have tree : parse "= \"\\\x01\r\" \t\r\n" = .ok root := by decide +kernel
    have code : (run oddDirectory.source words).code = 0 := success.mpr ⟨_, _, contents, tree⟩
    refine ⟨line, output, isJson, code, ?_⟩
    rw [code] at answers
    cases answers with
    | tree read parsed holds =>
        cases contents.symm.trans read
        cases tree.symm.trans parsed
        exact holds.decoded.mpr (by decide)
  · obtain ⟨-, line, output, -, isJson, -, answers⟩ :=
      @parse_answers oddDirectory.source others ⟨none, .parse ⟨"a \"b\"\r.slim"⟩⟩ _ _
        (by decide +kernel) rfl rfl
    have missing : oddDirectory.source.read ⟨"a \"b\"\r.slim"⟩ = .error .notFound := by
      decide +kernel
    refine ⟨line, output, isJson, ?_⟩
    generalize (run oddDirectory.source others).code = code at answers
    cases answers with
    | tree read _ _ => cases missing.symm.trans read
    | unparsed read _ _ => cases missing.symm.trans read
    | unread failed message =>
        cases missing.symm.trans failed
        exact message

end Specimen.CommandLine
