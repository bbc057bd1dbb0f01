/-
# Specimen.Index — all sections of a style guide.

A section is a call of the method that the settings name, with a literal argument, at the top level
of a template.  The index of a directory lists the sections of all templates below it, ordered by
file and line.  A template that cannot be read or parsed is passed over and counted; it does not
disturb the others.
-/
import Specimen.Extraction
import Specimen.Json.Writer

namespace Specimen

open Json

/-! ## Templates below a directory -/

/-- Names of directories that hold no templates of their own. -/
def ignoredNames : List String := ["node_modules", ".git", "target"]

/-- Whether a path leads through a directory that is left out. -/
def Path.isIgnored (path : Path) : Bool :=
  path.components.any fun component => (ignoredNames.map Text.bytes).contains component.nameBytes

/-- The templates at or below a path, in order. -/
def findTemplates (source : Source) (config : Config) (root : Path) : List Path :=
  ((source.filesBelow root).filter fun path =>
    !path.isIgnored && config.matchesExtension path).mergeSort Path.precedes

/-! ## Sections -/

/-- A section of a style guide. -/
structure Section where
  argument : String
  file : Path
  callLine : Nat
  span : Span
  /-- The text of the section, once it has been loaded. -/
  source : Option String
  deriving DecidableEq, Repr

namespace Section

/-- The section that a call site in a file is. -/
def ofSite (file : Path) (argument : String) (site : CallSite) : Section :=
  ⟨argument, file, site.callLine, site.span, none⟩

/-- Sections are ordered by file and then by line. -/
def precedes (a b : Section) : Bool :=
  ((compare a.file.components b.file.components).then (compare a.callLine b.callLine)).isLE

/-- The text of a section, cut out of its file. -/
def load (source : Source) (config : Config) (item : Section) : Caching Section := do
  pure { item with source := some (← extractSpan source config item.file item.span) }

end Section

/-- The sections of a style guide, and the number of templates that were passed over. -/
structure Index where
  sections : List Section := []
  skipped : Nat := 0
  deriving DecidableEq, Repr

namespace Index

/-! ## Building -/

/-- The sections of one template. -/
def sectionsOf (source : Source) (config : Config) (file : Path) : Caching (List Section) := do
  let root ← Cache.template source file
  pure ((CallSite.list root config.method).map fun (argument, site) =>
    Section.ofSite file argument site)

/-- The sections of several templates, one template after the other.  It cannot fail. -/
def gather (source : Source) (config : Config) : List Path → StateM Cache Index
  | [] => pure {}
  | file :: files => do
    let found ← (sectionsOf source config file).run
    let rest ← gather source config files
    match found with
    | .ok sections => pure { rest with sections := sections ++ rest.sections }
    | .error _ => pure { rest with skipped := rest.skipped + 1 }

/-- The index of the templates at or below a path. -/
def build (source : Source) (config : Config) (root : Path) : StateM Cache Index := do
  let index ← gather source config (findTemplates source config root)
  pure { index with sections := index.sections.mergeSort Section.precedes }

/-! ## Loading -/

/-- Loads sections one after the other.  The first file that cannot be read ends it: the sections
before keep what was loaded for them, and that one and the rest stay as they were. -/
def loadSections (source : Source) (config : Config) :
    List Section → StateM Cache (Option ExtractError × List Section)
  | [] => pure (none, [])
  | item :: items => do
    match ← (item.load source config).run with
    | .error fault => pure (some fault, item :: items)
    | .ok loaded =>
      let (fault, rest) ← loadSections source config items
      pure (fault, loaded :: rest)

/-- Loads the text of every section.  Gives the fault that ended it, if there was one, and the index
as far as it was loaded. -/
def load (source : Source) (config : Config) (index : Index) :
    StateM Cache (Option ExtractError × Index) := do
  let (fault, sections) ← loadSections source config index.sections
  pure (fault, { index with sections })

/-! ## Questions -/

/-- The first section with this argument. -/
def find? (index : Index) (argument : String) : Option Section :=
  index.sections.find? fun item => item.argument = argument

/-! ## As JSON -/

end Index

/-- A span as a JSON value. -/
def Span.toJson (span : Span) : Value :=
  .object [("start_line", .natural span.startLine), ("line_count", .natural span.lineCount)]

/-- A section as a JSON value, with its path as text.  It has a field for its own text only once
that has been loaded. -/
def Section.toJson (item : Section) (file : String) : Value :=
  .object ([("argument", .string item.argument), ("file", .string file),
    ("call_line", .natural item.callLine), ("span", item.span.toJson)] ++
    item.source.toList.map fun text => ("source", .string text))

/-- A section as a JSON value.  There is none if the path is no text. -/
def Section.toJson? (item : Section) : Option Value :=
  (Text.text? item.file.bytes).map item.toJson

/-- The index as a JSON value, with the values of its sections. -/
def Index.toJson (index : Index) (sections : List Value) : Value :=
  .object [("sections", .array sections), ("skipped", .natural index.skipped)]

/-- The index as a JSON value.  There is none if a section has none. -/
def Index.toJson? (index : Index) : Option Value :=
  (index.sections.mapM Section.toJson?).map index.toJson

/-- The index as JSON text, indented.  If it has no value, the text is that of an empty object. -/
def Index.toJsonText (index : Index) : String :=
  match index.toJson? with
  | some value => String.ofList (value.indented 0)
  | none => "\x7b\x7d"

end Specimen
