/-
# Specimen.Proofs.Session.Sections — sections as they are listed and as they are extracted.

The index lists the sections of a template, with their lines and their text; an extraction looks for
one section and cuts it out.  The two come to the same block by different ways: the index reads the
argument of every call and loads the text later, an extraction asks for one argument and cuts at
once, at its own line or at one that it is given.  `section_extracted` says that they agree, as long
as the files stay as they are and no line of code names the method twice.
-/
import Specimen.Proofs.CallSite.Agreement
import Specimen.Proofs.Index.Build
import Specimen.Proofs.Session.Independence

namespace Specimen

open Template CallSite

/-! ## The sections of an index -/

variable {source : Source} {config : Config}

/-- With a cache that keeps nothing yet, a template has sections only if its file can be read. -/
theorem readable_of_mem_sectionsFor {file : Path} {item : Section}
    (member : item ∈ Cache.sectionsFor {} source config file) :
    item.file = file ∧ ∃ text, source.read item.file = .ok text := by
  obtain ⟨text, root, entry, read, -, -, rfl⟩ := exists_of_mem_sectionsFor member
  exact ⟨rfl, text, read⟩

/-- A search that only one item can end gives what that item gives. -/
theorem findSome?_ite {α β : Type} [DecidableEq α] {items : List α} {wanted : α}
    (inside : wanted ∈ items) (result : Option β) :
    items.findSome? (fun item => if item = wanted then result else none) = result := by
  cases result with
  | none => exact List.findSome?_eq_none_iff.mpr fun item _ => ite_self none
  | some value =>
      obtain ⟨front, back, rfl, before⟩ := List.eq_append_cons_of_mem inside
      have passed : front.findSome? (fun item => if item = wanted then some value else none) =
          none := by
        refine List.findSome?_eq_none_iff.mpr fun item member => if_neg ?_
        exact fun same => before (same ▸ member)
      rw [List.findSome?_append, passed, Option.none_or, List.findSome?_cons, if_pos rfl]

/-- The first section of a file with some property is found among the sections of that file. -/
theorem find?_sections {files : List Path} {file : Path} (inside : file ∈ files)
    (asked : Section → Bool) :
    (files.flatMap (Cache.sectionsFor {} source config)).find?
        (fun item => decide (item.file = file) && asked item) =
      (Cache.sectionsFor {} source config file).find? asked := by
  have home : ∀ other, (Cache.sectionsFor {} source config other).find?
      (fun item => decide (item.file = file) && asked item) =
        if other = file then (Cache.sectionsFor {} source config file).find? asked else none := by
    intro other
    split
    · next same =>
      subst same
      apply List.find?_congr
      intro item member
      rw [(readable_of_mem_sectionsFor member).1, decide_eq_true rfl, Bool.true_and]
    · next differ =>
      rw [List.find?_eq_none]
      intro item member
      simp [(readable_of_mem_sectionsFor member).1, differ]
  rw [List.find?_flatMap, funext home, findSome?_ite inside]

theorem sectionsFor_of_parsed {file : Path} {tree : Node}
    (parsed : parseFile source file = .ok tree) :
    Cache.sectionsFor {} source config file = sectionsIn config.method file tree := by
  have current : Cache.currentTree? {} source file = (parseFile source file).toOption := rfl
  rw [Cache.sectionsFor, current, parsed]
  rfl

/-- The first section with an argument without quotes is the call that is located by it. -/
theorem find?_sectionsIn {method argument : String} {file : Path} {tree : Node}
    (unquoted : Unquoted argument)
    (once : ∀ site ∈ topLevel tree, OccursAtMostOnce method.toList site.code.toList) :
    (sectionsIn method file tree).find? (fun item => item.argument = argument) =
      (locate tree ⟨method, argument⟩).map (Section.ofSite file argument) := by
  have entries : (fun item : Section => decide (item.argument = argument)) ∘
      (fun entry : String × CallSite => Section.ofSite file entry.1 entry.2) =
        fun entry => decide (entry.1 = argument) := rfl
  rw [sectionsIn, List.find?_map, entries, find?_list unquoted once, Option.map_map]
  rfl

/-! ## Extractions past the cache -/

namespace Work

variable {file : Path} {tree : Node}

theorem runUncached_extract_of_site {query : Query} {site : CallSite} {text : String}
    (parsed : parseFile source file = .ok tree) (located : locate tree query = some site)
    (read : source.read file = .ok text) :
    (extract config file query).runUncached source =
      .ok ⟨site.span, site.span.cut config.indentWidth text⟩ := by
  rw [extract, runUncached, parsed, siteOf, located]
  simp only [extractSpan, map, runUncached, readText_eq_ok_iff.mpr read]
  rfl

theorem runUncached_extract_of_none {query : Query} (parsed : parseFile source file = .ok tree)
    (missing : locate tree query = none) :
    (extract config file query).runUncached source =
      .error (.callSiteNotFound file query.method query.argument) := by
  rw [extract, runUncached, parsed, siteOf, missing]
  rfl

theorem runUncached_extractFrom_of_site {query : Query} {site : CallSite} {text : String}
    (parsed : parseFile source file = .ok tree) (located : locate tree query = some site)
    (read : source.read file = .ok text) (startLine : Nat) :
    (extractFrom config file startLine query).runUncached source =
      .ok (Span.cut ⟨startLine, site.lineCount⟩ config.indentWidth text) := by
  rw [extractFrom, runUncached, parsed, siteOf, located]
  simp only [extractSpan, runUncached, readText_eq_ok_iff.mpr read]
  rfl

theorem runUncached_extractFrom_of_none {query : Query} (parsed : parseFile source file = .ok tree)
    (missing : locate tree query = none) (startLine : Nat) :
    (extractFrom config file startLine query).runUncached source =
      .error (.callSiteNotFound file query.method query.argument) := by
  rw [extractFrom, runUncached, parsed, siteOf, missing]
  rfl

end Work

/-! ## Requests -/

namespace Session

/-- A request that only answers with the result of some work is answered as that work comes out
without a cache, if the cache keeps what the files hold. -/
theorem step_eq_of_plan {α : Type} {session : Session} {request : Request}
    {work : Work (Except ExtractError α)} {reply : α → Reply}
    (planned : session.plan request = work.map (answering reply))
    (keeps : session.storage.Keeps session.cache)
    (finds : ∀ path ∈ session.asked request, session.storage.Finds path) :
    (session.step request).1 = (work.runUncached session.storage.source).map reply := by
  have result : (work.run session.storage.source session.cache).1 =
      work.runUncached session.storage.source := by
    apply keeps.run_eq
    intro lookup member
    apply finds
    rw [← session.lookups_plan request, planned, Work.lookups_map]
    exact List.mem_map_of_mem member
  rw [step_eq_carryOut, carryOut, planned, Work.run_map, ← result]
  rfl

/-- A session on a disk, with the index of a directory built and loaded: what the loading answered,
and the session that stands then. -/
def indexed (disk : Disk) (config : Config) (root : Path) : Except ExtractError Reply × Session :=
  let start : Session := { storage := .onDisk disk, config }
  (start.step (.buildIndex root)).2.step .loadIndex

/-- The sections of an index that is built with a fresh cache can all be loaded. -/
theorem indexed_spec (disk : Disk) (config : Config) (root : Path) :
    (indexed disk config root).1 = .ok (.index (indexed disk config root).2.index) ∧
      (indexed disk config root).2.index.sections =
        ((findTemplates disk.source config root).flatMap
          (Cache.sectionsFor {} disk.source config)).map (Section.withText disk.source config) := by
  let start : Session := { storage := .onDisk disk, config }
  let built := (start.step (.buildIndex root)).2
  have sections : built.index.sections = (findTemplates disk.source config root).flatMap
      (Cache.sectionsFor {} disk.source config) :=
    congrArg Index.sections (Index.build_run (disk.nodup_filesBelow root) config {})
  have readable : ∀ item ∈ built.index.sections, ∃ text, disk.source.read item.file = .ok text := by
    intro item member
    rw [sections] at member
    obtain ⟨file, -, inside⟩ := List.mem_flatMap.mp member
    exact (readable_of_mem_sectionsFor inside).2
  have loaded : ((Index.loadSections built.storage.source built.config built.index.sections).run
      built.cache).1 = _ := Index.loadSections_run readable config _
  have answered : indexed disk config root = _ := built.step_loadIndex
  rw [loaded] at answered
  rw [answered, ← sections]
  exact ⟨rfl, rfl⟩

/-- In the loaded index, the first section of a file with some argument is the call that is located
by it, with its text. -/
theorem find?_indexed {disk : Disk} {config : Config} {root file : Path} {tree : Node}
    {argument : String} (listed : file ∈ findTemplates disk.source config root)
    (parsed : parseFile disk.source file = .ok tree)
    (once : ∀ site ∈ topLevel tree, OccursAtMostOnce config.method.toList site.code.toList)
    (unquoted : Unquoted argument) :
    (indexed disk config root).2.index.sections.find?
        (fun item => decide (item.file = file) && decide (item.argument = argument)) =
      (locate tree ⟨config.method, argument⟩).map fun site =>
        (Section.ofSite file argument site).withText disk.source config := by
  have same : (fun item => decide (item.file = file) && decide (item.argument = argument)) ∘
      Section.withText disk.source config =
        fun item => decide (item.file = file) && decide (item.argument = argument) := rfl
  rw [(indexed_spec disk config root).2, List.find?_map, same, find?_sections listed,
    sectionsFor_of_parsed parsed, find?_sectionsIn unquoted once, Option.map_map]
  rfl

/-- As long as the files stay as they are, sections are extracted as they are listed.  The index of a
directory is built with a fresh cache and loaded, which cannot fail.  Then take a template that was
found and can be parsed, none of whose lines of code names the method twice, an argument without
quotes, and a session on the same files with the same settings, whatever it was asked before.  If the
index has sections of the template with the argument, the session extracts the lines and the text of
the first of them, and the same text from the line where it starts.  If there are none, it finds no
call site, from whatever line on. -/
theorem section_extracted {disk : Disk} {config : Config} {root file : Path} {tree : Node}
    {argument : String} {requests : List Request}
    (listed : file ∈ findTemplates disk.source config root)
    (parsed : parseFile disk.source file = .ok tree)
    (once : ∀ site ∈ topLevel tree, OccursAtMostOnce config.method.toList site.code.toList)
    (unquoted : Unquoted argument)
    (quiet : ∀ request ∈ requests, request.keepsFiles = true)
    (settings : (({ storage := .onDisk disk, config } : Session).run requests).config = config) :
    let session := ({ storage := .onDisk disk, config } : Session).run requests
    (indexed disk config root).1 = .ok (.index (indexed disk config root).2.index) ∧
      match (indexed disk config root).2.index.sections.find?
        (fun item => decide (item.file = file) && decide (item.argument = argument)) with
      | some item => ∃ text, item.source = some text ∧
          (session.step (.extractSection file argument)).1 = .ok (.extraction ⟨item.span, text⟩) ∧
          (session.step (.extractFrom file item.span.startLine ⟨config.method, argument⟩)).1 =
            .ok (.text text)
      | none =>
          (session.step (.extractSection file argument)).1 =
            .error (.callSiteNotFound file config.method argument) ∧
          ∀ startLine,
            (session.step (.extractFrom file startLine ⟨config.method, argument⟩)).1 =
              .error (.callSiteNotFound file config.method argument) := by
  intro session
  obtain ⟨text, read, -⟩ := parseFile_eq_ok_iff.mp parsed
  obtain ⟨files, keeps⟩ : session.storage = .onDisk disk ∧ Storage.Keeps (.onDisk disk) session.cache :=
    keeps_run rfl (.empty _) quiet
  have finds : session.storage.Finds file := by
    rw [files]
    exact Storage.finds_of_mem_filesBelow (List.mem_of_mem_filter (List.mem_mergeSort.mp listed))
  have only : ∀ path ∈ [file], session.storage.Finds path := by simpa using finds
  have source : session.storage.source = disk.source := by rw [files]; rfl
  have here : (session.step (.extractSection file argument)).1 =
      ((Work.extract config file ⟨config.method, argument⟩).runUncached disk.source).map
        .extraction := by
    rw [← source]
    refine step_eq_of_plan ?_ (files ▸ keeps) only
    show Work.map _ _ = _
    rw [settings]
  have fromLine : ∀ startLine,
      (session.step (.extractFrom file startLine ⟨config.method, argument⟩)).1 =
        ((Work.extractFrom config file startLine ⟨config.method, argument⟩).runUncached
          disk.source).map .text := by
    intro startLine
    rw [← source]
    refine step_eq_of_plan ?_ (files ▸ keeps) only
    show Work.map _ _ = _
    rw [settings]
  refine ⟨(indexed_spec disk config root).1, ?_⟩
  rw [find?_indexed listed parsed once unquoted]
  simp only [here, fromLine]
  cases located : locate tree ⟨config.method, argument⟩ with
  | some site =>
      refine ⟨site.span.cut config.indentWidth text, ?_, ?_, ?_⟩
      · simp [Section.withText, Section.ofSite, read, Except.toOption]
      · rw [Work.runUncached_extract_of_site parsed located read]
        rfl
      · rw [Work.runUncached_extractFrom_of_site parsed located read]
        rfl
  | none =>
      refine ⟨?_, fun startLine => ?_⟩
      · rw [Work.runUncached_extract_of_none parsed located]
        rfl
      · rw [Work.runUncached_extractFrom_of_none parsed located]
        rfl

/-- A template with two sections. -/
def twoSections : Disk :=
  Disk.empty.put ⟨"d/a.slim"⟩ "- kss_block '1'\n  p\n- kss_block '2'\n  div\n    p\n".toUTF8

/-- The tree of the template. -/
def twoSectionsTree : Node :=
  .container [
    .block (.call .control "kss_block '1'") [.lineBreak, .block (.markup .tag "p") [.lineBreak]],
    .block (.call .control "kss_block '2'") [.lineBreak,
      .block (.markup .tag "div") [.lineBreak, .block (.markup .tag "p") [.lineBreak]]]]

/-- The second section is extracted as the index has it, after other requests; a third one is not
found. -/
theorem section_extracted_second :
    let requests : List Request := [.extractSection ⟨"d/a.slim"⟩ "1", .findTemplates ⟨"d"⟩]
    let session := ({ storage := .onDisk twoSections } : Session).run requests
    (session.step (.extractSection ⟨"d/a.slim"⟩ "2")).1 =
        .ok (.extraction ⟨⟨3, 2⟩, "div\n  p\n"⟩) ∧
      (session.step (.extractFrom ⟨"d/a.slim"⟩ 3 ⟨"kss_block", "2"⟩)).1 =
        .ok (.text "div\n  p\n") ∧
      ∀ startLine, (session.step (.extractFrom ⟨"d/a.slim"⟩ startLine ⟨"kss_block", "3"⟩)).1 =
        .error (.callSiteNotFound ⟨"d/a.slim"⟩ "kss_block" "3") := by
  intro requests session
  have listed : (⟨"d/a.slim"⟩ : Path) ∈ findTemplates twoSections.source {} ⟨"d"⟩ := by
    rw [findTemplates, List.mem_mergeSort]
    decide +kernel
  have parsed : parseFile twoSections.source ⟨"d/a.slim"⟩ = .ok twoSectionsTree := by
    decide +kernel
  have once : ∀ site ∈ topLevel twoSectionsTree,
      OccursAtMostOnce "kss_block".toList site.code.toList := by
    decide +kernel
  have quiet : ∀ request ∈ requests, request.keepsFiles = true := by decide
  obtain ⟨-, second⟩ := section_extracted listed parsed once (by decide : Unquoted "2") quiet rfl
  obtain ⟨-, third⟩ := section_extracted listed parsed once (by decide : Unquoted "3") quiet rfl
  have present : (indexed twoSections {} ⟨"d"⟩).2.index.sections.find?
      (fun item => decide (item.file = ⟨"d/a.slim"⟩) && decide (item.argument = "2")) =
        some ⟨"2", ⟨"d/a.slim"⟩, 2, ⟨3, 2⟩, some "div\n  p\n"⟩ := by
    rw [find?_indexed listed parsed once (by decide)]
    decide +kernel
  have absent : (indexed twoSections {} ⟨"d"⟩).2.index.sections.find?
      (fun item => decide (item.file = ⟨"d/a.slim"⟩) && decide (item.argument = "3")) = none := by
    rw [find?_indexed listed parsed once (by decide)]
    decide +kernel
  rw [present] at second
  rw [absent] at third
  obtain ⟨text, loaded, here, fromLine⟩ := second
  obtain rfl := Option.some.inj loaded
  exact ⟨here, fromLine, third.2⟩

end Session

end Specimen
