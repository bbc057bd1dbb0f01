/-
# Specimen.Proofs.CommandLine.Index — the index is always printed.

To load the text of its sections is the one thing that can fail in the making of an index, and it
fails with the first file that cannot be read.  But an index that has just been built with a fresh
cache has sections only of files that were read and parsed for it.  So, as long as the files stay as
they are, the command succeeds whatever lies in the directory: a template that is broken, is no text
or cannot be read is counted and has no sections.

Success does not mean that the sections are printed.  JSON has no place for a path that is no text,
and if a section has such a path, an empty object is printed for the whole index.  `index_unprinted`
has a directory of that kind.
-/
import Specimen.CommandLine.Run
import Specimen.Proofs.Index.Build
import Specimen.Proofs.Index.Json
import Specimen.Proofs.Index.Load

namespace Specimen.CommandLine

open Template

/-! ## What is asked -/

/-- A command line that asks for an index, with a settings file or without one. -/
def indexWords (config : Option String) (root : String) (withSource : Bool) : List String :=
  (config.toList.flatMap fun file => ["--config", file]) ++
    "index" :: root :: if withSource then ["--with-source"] else []

theorem ne_dashes {word : String} (operand : Progress.isOption word.toList = false) :
    word ≠ "--" := by
  rintro rfl
  contradiction

theorem front_indexWords {config : Option String}
    (settings : ∀ file ∈ config, Progress.isOption file.toList = false) (rest : List String) :
    Progress.front {} ((config.toList.flatMap fun file => ["--config", file]) ++ "index" :: rest) =
      .ok ({ pending := config.elim .nothing (.unchecked .config) }, "index" :: rest) := by
  cases config with
  | none => rfl
  | some file =>
      have operand := settings file rfl
      have awaited : Progress.front {} ("--config" :: file :: "index" :: rest) =
          Progress.front { pending := .awaited .config } (file :: "index" :: rest) := rfl
      show Progress.front {} ("--config" :: file :: "index" :: rest) = _
      rw [awaited, Progress.front, if_neg (ne_dashes operand), if_neg (by simp [operand])]
      rfl

theorem behind_indexWords {root : String} (nonempty : root ≠ "")
    (operand : Progress.isOption root.toList = false) (withSource : Bool) :
    Progress.behind .index {} (root :: if withSource then ["--with-source"] else []) =
      .ok { operands := [root], withSource } := by
  have taken : Given.operand {} .index root = .ok { operands := [root] } := by
    simp [Given.operand, Level.operands, nonempty]
  rw [Progress.behind, if_neg (ne_dashes operand), if_neg (by simp [operand])]
  simp only [Progress.settle, taken]
  cases withSource <;> rfl

/-- Such a command line is understood, if its names are not empty and are no options. -/
theorem ofArguments_indexWords {config : Option String} {root : String} {withSource : Bool}
    (settings : ∀ file ∈ config, file ≠ "" ∧ Progress.isOption file.toList = false)
    (nonempty : root ≠ "") (operand : Progress.isOption root.toList = false) :
    Invocation.ofArguments (indexWords config root withSource) =
      .ok ⟨config.map Path.mk, .index ⟨root⟩ withSource⟩ := by
  let outer : Progress := { pending := config.elim .nothing (.unchecked .config) }
  have settled : outer.settle = .ok { config := config.map Path.mk } := by
    cases config with
    | none => rfl
    | some file =>
        simp [outer, Progress.settle, Given.set, path?, once, Except.map, (settings file rfl).1]
  calc Invocation.ofArguments (indexWords config root withSource)
    _ = (do
        let inner ← Progress.behind .index {}
          (root :: if withSource then ["--with-source"] else [])
        let command ← inner.command .index
        let outer ← outer.settle
        pure ⟨inner.config.or outer.config, command⟩) := by
      rw [Invocation.ofArguments, indexWords,
        front_indexWords fun file given => (settings file given).2]
      rfl
    _ = .ok ⟨config.map Path.mk, .index ⟨root⟩ withSource⟩ := by
      rw [behind_indexWords nonempty operand, settled]
      rfl

/-! ## What is shown -/

/-- The index that the command shows: as it is built, or with the text of every section. -/
def shownIndex (source : Source) (config : Config) (root : Path) (withSource : Bool) : Index :=
  let built := ((Index.build source config root).run {}).1
  if withSource then
    { built with sections := built.sections.map (Section.withText source config) }
  else built

variable {source : Source} {root : Path}

/-- The sections that are shown are calls in the trees of the templates that are found. -/
theorem exists_of_mem_built (distinct : ((source.filesBelow root).map Path.components).Nodup)
    {config : Config} {item : Section}
    (member : item ∈ ((Index.build source config root).run {}).1.sections) :
    item.file ∈ findTemplates source config root ∧
      ∃ text tree entry, source.read item.file = .ok text ∧ parse text = .ok tree ∧
        entry ∈ CallSite.list tree config.method ∧
        item = Section.ofSite item.file entry.1 entry.2 := by
  rw [Index.build_run distinct] at member
  obtain ⟨file, found, inside⟩ := List.mem_flatMap.mp member
  obtain ⟨text, tree, entry, read, parsed, listed, rfl⟩ := exists_of_mem_sectionsFor inside
  exact ⟨found, text, tree, entry, read, parsed, listed, rfl⟩

/-- With `withSource` every section that is shown has its text, and without it none has. -/
theorem exists_of_mem_shown (distinct : ((source.filesBelow root).map Path.components).Nodup)
    {config : Config} {withSource : Bool} {item : Section}
    (member : item ∈ (shownIndex source config root withSource).sections) :
    item.file ∈ findTemplates source config root ∧
      ∃ text tree site, source.read item.file = .ok text ∧ parse text = .ok tree ∧
        (item.argument, site) ∈ CallSite.list tree config.method ∧
        item.callLine = site.callLine ∧ item.span = site.span ∧
        item.source =
          if withSource then some (item.span.cut config.indentWidth text) else none := by
  cases withSource with
  | false =>
      obtain ⟨found, text, tree, entry, read, parsed, listed, same⟩ :=
        exists_of_mem_built distinct member
      refine ⟨found, text, tree, entry.2, read, parsed, ?_⟩
      rw [same]
      exact ⟨listed, rfl, rfl, rfl⟩
  | true =>
      obtain ⟨bare, inside, rfl⟩ := List.mem_map.mp member
      obtain ⟨found, text, tree, entry, read, parsed, listed, same⟩ :=
        exists_of_mem_built distinct inside
      refine ⟨found, text, tree, entry.2, read, parsed, ?_⟩
      rw [same, Section.withText]
      exact ⟨listed, rfl, rfl, by rw [← same, read]; rfl⟩

/-- As long as no file is listed twice, the index of a directory is printed. -/
theorem runIndex_eq (distinct : ((source.filesBelow root).map Path.components).Nodup)
    (config : Config) (withSource : Bool) :
    runIndex source config root withSource =
      .printed 0 ((shownIndex source config root withSource).toJsonText ++ "\n") := by
  cases withSource with
  | false => rfl
  | true =>
      have readable : ∀ item ∈ ((Index.build source config root).run {}).1.sections,
          ∃ text, source.read item.file = .ok text := by
        intro item member
        obtain ⟨-, text, -, -, read, -⟩ := exists_of_mem_built distinct member
        exact ⟨text, read⟩
      rw [runIndex, shownIndex]
      generalize (Index.build source config root).run {} = outcome at readable ⊢
      obtain ⟨built, after⟩ := outcome
      have loaded := Index.load_of_readable readable config after
      simp only [if_true, loaded]

/-- An index is made and printed, whatever lies in the directory.  An invocation that asks for an
index and whose settings can be loaded ends with code zero and reports no failure.  It prints the
index as JSON and a line end, if the paths of all sections are texts, and else an empty object.

Every section that is shown is a call in the tree of a template that was found, read and parsed;
with `withSource`, every one has its text.  A command line that is understood as the invocation gets
the same answer. -/
theorem index_printed {disk : Disk} {invocation : Invocation} {root : Path} {withSource : Bool}
    {config : Config} (asked : invocation.command = .index root withSource)
    (loads : invocation.loadConfig disk.source = .ok config) :
    let shown := shownIndex disk.source config root withSource
    let outcome := invocation.run disk.source
    outcome.code = 0 ∧ outcome.report? = none ∧
      ((∀ item ∈ shown.sections, ∃ text : String, item.file = ⟨text⟩) →
        ∃ value, shown.toJson? = some value ∧
          outcome.output = String.ofList (value.indented 0) ++ "\n") ∧
      ((∃ item ∈ shown.sections, ∀ text : String, item.file ≠ ⟨text⟩) →
        outcome.output = "\x7b\x7d\n") ∧
      (∀ item ∈ shown.sections, item.file ∈ findTemplates disk.source config root ∧
        ∃ text tree site, disk.source.read item.file = .ok text ∧ parse text = .ok tree ∧
          (item.argument, site) ∈ CallSite.list tree config.method ∧
          item.callLine = site.callLine ∧ item.span = site.span ∧
          item.source =
            if withSource then some (item.span.cut config.indentWidth text) else none) ∧
      ∀ words, Invocation.ofArguments words = .ok invocation → run disk.source words = outcome := by
  intro shown outcome
  have distinct := disk.nodup_filesBelow root
  have printed : outcome = .printed 0 (shown.toJsonText ++ "\n") := by
    have carried : outcome = runIndex disk.source config root withSource := by
      simp only [outcome, Invocation.run, loads, asked]
    rw [carried, runIndex_eq distinct]
  have output : outcome.output = shown.toJsonText ++ "\n" := by rw [printed]; rfl
  refine ⟨by rw [printed]; rfl, by rw [printed]; rfl, ?_, ?_, ?_, ?_⟩
  · intro named
    obtain ⟨value, given, text⟩ := Index.exists_toJsonText_eq named
    exact ⟨value, given, by rw [output, text]⟩
  · intro unnamed
    rw [output, Index.toJsonText_of_unnamed unnamed]
    rfl
  · exact fun item member => exists_of_mem_shown distinct member
  · intro words understood
    simp only [run, understood, outcome]

/-- A template with a section, one that cannot be parsed, one that is no text, and settings. -/
def mixedDirectory : Disk :=
  (((Disk.empty.put ⟨"c.json"⟩ "\x7b\"indent_width\": 4\x7d".toUTF8).put
    ⟨"d/c.slim"⟩ "- kss_block '1'\n    p\n".toUTF8).put
    ⟨"d/b.slim"⟩ "-\n".toUTF8).put ⟨"d/a.slim"⟩ ⟨#[0xff]⟩

/-- The one section is shown with its text, and the other two templates are counted. -/
theorem index_printed_mixed :
    let words := indexWords (some "c.json") "d" true
    let outcome := run mixedDirectory.source words
    let index : Index := ⟨[⟨"1", ⟨"d/c.slim"⟩, 0, ⟨1, 1⟩, some "p\n"⟩], 2⟩
    Invocation.ofArguments words = .ok ⟨some ⟨"c.json"⟩, .index ⟨"d"⟩ true⟩ ∧
      Config.load mixedDirectory.source ⟨"c.json"⟩ = .ok { indentWidth := 4 } ∧
      outcome.code = 0 ∧ outcome.report? = none ∧ ∃ value, index.toJson? = some value ∧
        outcome.output = String.ofList (value.indented 0) ++ "\n" := by
  intro words outcome index
  have understood : Invocation.ofArguments words = .ok ⟨some ⟨"c.json"⟩, .index ⟨"d"⟩ true⟩ :=
    ofArguments_indexWords (by decide) (by decide) (by decide)
  have loads : Config.load mixedDirectory.source ⟨"c.json"⟩ = .ok { indentWidth := 4 } := by
    decide +kernel
  have found : findTemplates mixedDirectory.source { indentWidth := 4 } ⟨"d"⟩ =
      [⟨"d/a.slim"⟩, ⟨"d/b.slim"⟩, ⟨"d/c.slim"⟩] :=
    findTemplates_of_ordered (by decide +kernel) (by decide +kernel)
  have shown : shownIndex mixedDirectory.source { indentWidth := 4 } ⟨"d"⟩ true = index := by
    rw [shownIndex, Index.build_run (mixedDirectory.nodup_filesBelow ⟨"d"⟩), found]
    decide +kernel
  obtain ⟨code, report, output, -, -, same⟩ :=
    @index_printed mixedDirectory ⟨some ⟨"c.json"⟩, .index ⟨"d"⟩ true⟩ ⟨"d"⟩ true _ rfl loads
  rw [shown, ← same words understood] at output
  rw [← same words understood] at code report
  refine ⟨understood, loads, code, report, output ?_⟩
  exact List.forall_mem_singleton.mpr ⟨"d/c.slim", rfl⟩

/-- The path of a template that is no text. -/
def unnamed : Path := ⟨Text.bytes "d/" ++ 0xFF :: Text.bytes ".slim"⟩

/-- A template with a section, at that path. -/
def unnamedDirectory : Disk := Disk.empty.put unnamed "- kss_block '1'\n p\n".toUTF8

/-- The index has a section, and none is printed.  An empty name of the directory is refused before
any is looked for. -/
theorem index_unprinted :
    let outcome := run unnamedDirectory.source (indexWords none "d" false)
    shownIndex unnamedDirectory.source {} ⟨"d"⟩ false =
        ⟨[⟨"1", unnamed, 0, ⟨1, 1⟩, none⟩], 0⟩ ∧
      outcome.code = 0 ∧ outcome.output = "\x7b\x7d\n" ∧
      (run Disk.empty.source (indexWords none "" false)).code = 2 := by
  intro outcome
  have distinct := unnamedDirectory.nodup_filesBelow ⟨"d"⟩
  have found : findTemplates unnamedDirectory.source {} ⟨"d"⟩ = [unnamed] :=
    findTemplates_of_ordered (by decide +kernel) (List.pairwise_singleton _ _)
  have shown : shownIndex unnamedDirectory.source {} ⟨"d"⟩ false =
      ⟨[⟨"1", unnamed, 0, ⟨1, 1⟩, none⟩], 0⟩ := by
    rw [shownIndex, Index.build_run distinct, found]
    decide +kernel
  have printed : outcome = .printed 0 "\x7b\x7d\n" := by
    have understood : Invocation.ofArguments (indexWords none "d" false) =
        .ok ⟨none, .index ⟨"d"⟩ false⟩ :=
      ofArguments_indexWords (by decide) (by decide) (by decide)
    have carried : outcome = runIndex unnamedDirectory.source {} ⟨"d"⟩ false := by
      simp only [outcome, run, understood, Invocation.run, Invocation.loadConfig]
    rw [carried, runIndex_eq distinct, shown]
    decide +kernel
  exact ⟨shown, by rw [printed]; rfl, by rw [printed]; rfl, by decide +kernel⟩

end Specimen.CommandLine
