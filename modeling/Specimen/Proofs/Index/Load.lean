/-
# Specimen.Proofs.Index.Load — loading the text of sections.

Sections are loaded one after the other, each with one read of its file.  Loading gets to the first
section whose file cannot be read and stops there; the sections before it have their text, and it and
the ones behind it stay as they were.  If there is no such section, all have their text in the end.

So what a failure leaves behind is half done, but no more than that: nothing changes except texts, no
template is asked for, and whoever loads again from the same files ends in the same place.
-/
import Mathlib.Data.List.Forall2
import Specimen.Index
import Specimen.Proofs.Cache.Template

namespace Specimen

theorem load_run (source : Source) (config : Config) (item : Section) (cache : Cache) :
    (item.load source config).run.run cache =
      ((readText source item.file).map fun contents =>
        { item with source := some (item.span.cut config.indentWidth contents) },
        cache.countRead) := by
  rw [Section.load, run_bind, extractSpan_run]
  cases readText source item.file <;> rfl

/-- The section with the text that its file has now. -/
def Section.withText (source : Source) (config : Config) (item : Section) : Section :=
  { item with source := (source.read item.file).toOption.map (item.span.cut config.indentWidth) }

namespace Index

/-- The sections that loading gets to: all up to the first whose file cannot be read, and that one
too. -/
def attempted (source : Source) : List Section → List Section
  | [] => []
  | item :: items =>
    match source.read item.file with
    | .ok _ => item :: attempted source items
    | .error _ => [item]

/-- The two ways in which loading can end, with the fault and the sections that it leaves: all files
can be read, or one of them is the first that cannot. -/
inductive LoadEnds (source : Source) (config : Config) (items : List Section) :
    Option ExtractError × List Section → Prop
  | all : (∀ item ∈ items, ∃ text, source.read item.file = .ok text) →
      attempted source items = items →
      LoadEnds source config items (none, items.map (Section.withText source config))
  | stopped {before after : List Section} {item : Section} {reason : ReadError} :
      items = before ++ item :: after →
      (∀ earlier ∈ before, ∃ text, source.read earlier.file = .ok text) →
      source.read item.file = .error reason → attempted source items = before ++ [item] →
      LoadEnds source config items
        (some (.read item.file reason), before.map (Section.withText source config) ++ item :: after)

/-- A section whose file can be read is loaded, and the others come behind it. -/
theorem loadSections_cons_of_read {source : Source} {item : Section} {text : String}
    (read : source.read item.file = .ok text) (config : Config) (items : List Section)
    (cache : Cache) :
    (loadSections source config (item :: items)).run cache =
      ((loadSections source config items).run cache.countRead).map
        (fun (fault, rest) => (fault, item.withText source config :: rest)) id := by
  have loaded : item.withText source config =
      { item with source := some (item.span.cut config.indentWidth text) } := by
    rw [Section.withText, read]
    rfl
  rw [loadSections, StateT.run_bind, load_run, readText_eq_ok_iff.mpr read, loaded]
  rfl

/-- At a section whose file cannot be read loading ends. -/
theorem loadSections_cons_of_unread {source : Source} {item : Section} {reason : ReadError}
    (unread : source.read item.file = .error reason) (config : Config) (items : List Section)
    (cache : Cache) :
    (loadSections source config (item :: items)).run cache =
      ((some (.read item.file reason), item :: items), cache.countRead) := by
  rw [loadSections, StateT.run_bind, load_run, readText, unread]
  rfl

theorem loadEnds (source : Source) (config : Config) (items : List Section) (cache : Cache) :
    LoadEnds source config items ((loadSections source config items).run cache).1 := by
  induction items generalizing cache with
  | nil => exact .all (fun _ none => by cases none) rfl
  | cons item items ih =>
      cases read : source.read item.file with
      | error reason =>
          rw [loadSections_cons_of_unread read]
          refine .stopped (List.nil_append _).symm (fun _ none => by cases none) read ?_
          rw [attempted, read]
          rfl
      | ok text =>
          have next : attempted source (item :: items) = item :: attempted source items := by
            rw [attempted, read]
          have others := ih cache.countRead
          rw [loadSections_cons_of_read read, Prod.map_fst]
          generalize ((loadSections source config items).run cache.countRead).1 = result at others
          cases others with
          | all readable same =>
              exact .all (List.forall_mem_cons.mpr ⟨⟨text, read⟩, readable⟩) (by rw [next, same])
          | stopped split readable unread same =>
              refine .stopped (congrArg (item :: ·) split)
                (List.forall_mem_cons.mpr ⟨⟨text, read⟩, readable⟩) unread ?_
              rw [next, same]
              rfl

/-- If the files of all sections can be read, all sections are loaded. -/
theorem loadSections_run {source : Source} {items : List Section}
    (readable : ∀ item ∈ items, ∃ text, source.read item.file = .ok text) (config : Config)
    (cache : Cache) :
    ((loadSections source config items).run cache).1 =
      (none, items.map (Section.withText source config)) := by
  have ends := loadEnds source config items cache
  generalize ((loadSections source config items).run cache).1 = result at ends
  cases ends with
  | all _ _ => rfl
  | @stopped before after item reason split _ unread _ =>
      obtain ⟨text, read⟩ := readable item (by rw [split]; simp)
      rw [unread] at read
      contradiction

/-- If the files of all sections can be read, the index is loaded without a fault. -/
theorem load_of_readable {source : Source} {index : Index}
    (readable : ∀ item ∈ index.sections, ∃ text, source.read item.file = .ok text)
    (config : Config) (cache : Cache) :
    ((index.load source config).run cache).1 =
      (none, { index with sections := index.sections.map (Section.withText source config) }) := by
  have loaded := loadSections_run readable config cache
  rw [load, StateT.run_bind]
  generalize (loadSections source config index.sections).run cache = outcome at loaded ⊢
  obtain ⟨result, after⟩ := outcome
  subst loaded
  rfl

/-- Loading ends at the first section whose file cannot be read, wherever it stands. -/
theorem loadSections_run_of_unread {source : Source} {before after : List Section} {item : Section}
    {reason : ReadError}
    (readable : ∀ earlier ∈ before, ∃ text, source.read earlier.file = .ok text)
    (unread : source.read item.file = .error reason) (config : Config) (cache : Cache) :
    ((loadSections source config (before ++ item :: after)).run cache).1 =
      (some (.read item.file reason),
        before.map (Section.withText source config) ++ item :: after) := by
  induction before generalizing cache with
  | nil =>
      rw [List.nil_append, loadSections_cons_of_unread unread]
      rfl
  | cons first before ih =>
      obtain ⟨⟨text, read⟩, others⟩ := List.forall_mem_cons.mp readable
      rw [List.cons_append, loadSections_cons_of_read read, Prod.map_fst, ih others]
      rfl

/-! ## What loading leaves -/

/-- Loading asks for no template. -/
theorem templates_loadSections (source : Source) (config : Config) (items : List Section)
    (cache : Cache) :
    ((loadSections source config items).run cache).2.templates = cache.templates := by
  induction items generalizing cache with
  | nil => rfl
  | cons item items ih =>
      cases read : source.read item.file with
      | error reason => rw [loadSections_cons_of_unread read]; rfl
      | ok text =>
          rw [loadSections_cons_of_read read, Prod.map_snd, id_eq, ih]
          rfl

/-- Loading an index is loading its sections. -/
theorem load_run_eq (source : Source) (config : Config) (index : Index) (cache : Cache) :
    (index.load source config).run cache =
      ((loadSections source config index.sections).run cache).map
        (fun (fault, sections) => (fault, { index with sections })) id := by
  rw [load, StateT.run_bind]
  rfl

end Index

/-- The section without its text. -/
def Section.withoutText (item : Section) : Section := { item with source := none }

/-- The lines of a text that a span has there. -/
def Span.linesIn (span : Span) (contents : String) : List (List Char) :=
  ((Text.pieces contents.toList).drop span.startLine).take span.lineCount

/-- The second section is the first with the text that its file has now: the lines of its span, each
with one level of indentation taken off.  Where the file ends before the span, there are fewer
lines. -/
structure Section.Loaded (source : Source) (config : Config) (before after : Section) : Prop where
  unchanged : after.withoutText = before.withoutText
  text : ∃ contents, source.read before.file = .ok contents ∧
    after.source = some (before.span.cut config.indentWidth contents) ∧
    before.span.cut config.indentWidth contents =
      String.ofList ((before.span.linesIn contents).flatMap (outdent config.indentWidth)) ∧
    (before.span.linesIn contents).length =
      min before.span.lineCount ((Text.pieces contents.toList).length - before.span.startLine)

namespace Section

variable {source : Source} {config : Config}

theorem loaded_withText {item : Section} (readable : ∃ text, source.read item.file = .ok text) :
    Loaded source config item (item.withText source config) := by
  obtain ⟨text, read⟩ := readable
  refine ⟨rfl, text, read, ?_, rfl, ?_⟩
  · rw [withText, read]
    rfl
  · rw [Span.linesIn, List.length_take, List.length_drop]

theorem forall₂_loaded {items : List Section}
    (readable : ∀ item ∈ items, ∃ text, source.read item.file = .ok text) :
    List.Forall₂ (Loaded source config) items (items.map (withText source config)) := by
  rw [List.forall₂_map_right_iff, List.forall₂_same]
  exact fun item member => loaded_withText (readable item member)

/-- To load sections once more from the same files changes nothing. -/
theorem map_withText_withText (items : List Section) :
    (items.map (withText source config)).map (withText source config) =
      items.map (withText source config) := by
  rw [List.map_map]
  exact List.map_congr_left fun item _ => rfl

theorem map_withoutText_withText (items : List Section) :
    (items.map (withText source config)).map withoutText = items.map withoutText := by
  rw [List.map_map]
  exact List.map_congr_left fun item _ => rfl

end Section

namespace Index

/-- To load sections again that have been loaded from the same files comes to the same. -/
theorem LoadEnds.again {source : Source} {config : Config} {items : List Section}
    {result : Option ExtractError × List Section} (ends : LoadEnds source config items result)
    (cache : Cache) : ((loadSections source config result.2).run cache).1 = result := by
  have readable_map : ∀ {items : List Section},
      (∀ item ∈ items, ∃ text, source.read item.file = .ok text) →
        ∀ item ∈ items.map (Section.withText source config),
          ∃ text, source.read item.file = .ok text := by
    intro items readable item member
    obtain ⟨bare, inside, rfl⟩ := List.mem_map.mp member
    exact readable bare inside
  cases ends with
  | all readable _ =>
      rw [loadSections_run (readable_map readable), Section.map_withText_withText]
  | stopped _ readable unread _ =>
      rw [loadSections_run_of_unread (readable_map readable) unread,
        Section.map_withText_withText]

/-- How the loading of an index comes out, for the fault that it reports and the sections that it
leaves. -/
inductive Settles (source : Source) (config : Config) (sections : List Section) :
    Option ExtractError → List Section → Prop
  /-- All files can be read, and every section has its text. -/
  | all {loaded : List Section} :
      (∀ item ∈ sections, ∃ text, source.read item.file = .ok text) →
      List.Forall₂ (Section.Loaded source config) sections loaded →
      Settles source config sections none loaded
  /-- A file cannot be read, and it is the first.  The sections before have their text; this one and
  those behind it are as they were. -/
  | stopped {before loaded after : List Section} {item : Section} {reason : ReadError} :
      sections = before ++ item :: after →
      (∀ earlier ∈ before, ∃ text, source.read earlier.file = .ok text) →
      source.read item.file = .error reason →
      List.Forall₂ (Section.Loaded source config) before loaded →
      Settles source config sections (some (.read item.file reason)) (loaded ++ item :: after)

theorem LoadEnds.settles {source : Source} {config : Config} {items : List Section}
    {result : Option ExtractError × List Section} (ends : LoadEnds source config items result) :
    Settles source config items result.1 result.2 := by
  cases ends with
  | all readable _ => exact .all readable (Section.forall₂_loaded readable)
  | stopped split readable unread _ =>
      exact .stopped split readable unread (Section.forall₂_loaded readable)

/-- Loading touches nothing but texts. -/
theorem LoadEnds.withoutText {source : Source} {config : Config} {items : List Section}
    {result : Option ExtractError × List Section} (ends : LoadEnds source config items result) :
    result.2.map Section.withoutText = items.map Section.withoutText := by
  cases ends with
  | all _ _ => exact Section.map_withoutText_withText items
  | stopped split _ _ _ =>
      rw [split, List.map_append, List.map_append, Section.map_withoutText_withText]

/-- Whatever index is loaded, from whatever files: either all files of its sections can be read, and
every section gets the text that its file has now; or the loading fails at the first section whose
file cannot be read, the sections before have got their text, and that section and those behind it
are left as they were.  Nothing but texts has changed then, and the cache keeps the same templates.
As long as the files stay as they are, to load once more comes to the same fault and the same
index. -/
theorem load_atomic (source : Source) (config : Config) (index : Index) (cache : Cache) :
    let result := (index.load source config).run cache
    let fault := result.1.1
    let loaded := result.1.2
    Settles source config index.sections fault loaded.sections ∧
      loaded.sections.map Section.withoutText = index.sections.map Section.withoutText ∧
      loaded.skipped = index.skipped ∧
      result.2.templates = cache.templates ∧
      ∀ later, ((loaded.load source config).run later).1 = (fault, loaded) ∧
        ((loaded.load source config).run later).2.templates = later.templates := by
  intro result fault loaded
  have ends := loadEnds source config index.sections cache
  have outcome : result = ((loadSections source config index.sections).run cache).map
      (fun (fault, sections) => (fault, { index with sections })) id := load_run_eq ..
  have templates := templates_loadSections source config index.sections cache
  generalize (loadSections source config index.sections).run cache = first at ends outcome templates
  obtain ⟨⟨reported, sections⟩, after⟩ := first
  obtain rfl : fault = reported := congrArg (·.1.1) outcome
  obtain same : loaded = { index with sections } := congrArg (·.1.2) outcome
  rw [same]
  refine ⟨ends.settles, ends.withoutText, rfl, ?_, fun later => ⟨?_, ?_⟩⟩
  · rw [outcome]
    exact templates
  · rw [load_run_eq, Prod.map_fst, ends.again later]
  · rw [load_run_eq, Prod.map_snd, id_eq, templates_loadSections]

end Index

end Specimen
