/-
# Specimen.Proofs.Index.Order — sections stand in the order of their places.

A section has a place: its file, and the line of its call.  Files are found each once, and a call in
a parsed tree has at least the line break of its own line, so the next call of the same tree stands
on a later line, behind all lines of the body.  From the two together the places of an index
increase strictly, and to search it from the front is to find the least place.

A tree that no source produces may hold calls without a line break; two such calls share a line.  So
what is said here is said of caches that keep nothing but parsed trees.  Work with a cache keeps it
that way.
-/
import Specimen.Proofs.Index.Build
import Specimen.Proofs.Session.Plan

namespace Specimen

open Template

/-! ## Caches of parsed trees -/

/-- Every tree that is kept is the tree of some text, whatever the file holds by now. -/
def Cache.KeepsParsed (cache : Cache) : Prop :=
  ∀ path root, cache.find? path = some root → ∃ text, parse text = .ok root

namespace Cache.KeepsParsed

variable {cache : Cache}

theorem empty : KeepsParsed {} := fun _ _ found => by cases found

/-- A lookup keeps a tree only when it has parsed it. -/
theorem after (keeps : cache.KeepsParsed) (source : Source) (path : Path) :
    (Lookup.mk source path cache).after.KeepsParsed := by
  intro other root found
  cases (Lookup.mk source path cache).ends with
  | kept _ outcome | failed _ _ outcome =>
      rw [Lookup.after, outcome] at found
      exact keeps other root found
  | parsed _ parsed outcome =>
      rw [Lookup.after, outcome, Cache.find?_keep, Option.or_eq_some_iff] at found
      rcases found with old | ⟨-, new⟩
      · exact keeps other root old
      · obtain ⟨-, kept⟩ := Option.ite_none_right_eq_some.mp new
        obtain rfl := Option.some.inj kept
        obtain ⟨text, -, tree⟩ := parseFile_eq_ok_iff.mp parsed
        exact ⟨text, tree⟩

theorem work {α : Type} (keeps : cache.KeepsParsed) (work : Work α) (source : Source) :
    (work.run source cache).2.KeepsParsed := by
  induction work generalizing cache with
  | done result => exact keeps
  | template path next ih => exact ih _ (keeps.after source path)
  | text path next ih => exact ih _ keeps

/-- The making of an index is work with the cache. -/
theorem build (keeps : cache.KeepsParsed) (source : Source) (config : Config) (root : Path) :
    ((Index.build source config root).run cache).2.KeepsParsed := by
  have gathered := keeps.work
    (Work.gather config (findTemplates source config root) Work.done) source
  rw [gather_run_eq] at gathered
  exact gathered

/-- The tree that a template has for an index is a parsed one, kept or not. -/
theorem exists_of_currentTree? (keeps : cache.KeepsParsed) {source : Source} {path : Path}
    {root : Node} (current : cache.currentTree? source path = some root) :
    ∃ text, parse text = .ok root := by
  unfold Cache.currentTree? at current
  split at current
  · next kept found =>
    obtain rfl := Option.some.inj current
    exact keeps path kept found
  · cases parsed : parseFile source path with
    | error fault =>
        rw [parsed] at current
        cases current
    | ok tree =>
        rw [parsed] at current
        obtain rfl := Option.some.inj current
        obtain ⟨text, -, tree⟩ := parseFile_eq_ok_iff.mp parsed
        exact ⟨text, tree⟩

end Cache.KeepsParsed

/-- Whatever a session is asked, its cache keeps nothing but parsed trees. -/
theorem Session.keepsParsed_run {session : Session} (keeps : session.cache.KeepsParsed)
    (requests : List Request) : (session.run requests).cache.KeepsParsed := by
  induction requests generalizing session with
  | nil => exact keeps
  | cons request requests ih =>
      apply ih
      rw [(session.step_changes request).cache]
      exact keeps.work _ _

/-! ## Places -/

/-- The first line behind a span. -/
def Span.stop (span : Span) : Nat := span.startLine + span.lineCount

/-- The lines of a span. -/
def Span.lines (span : Span) : List Nat := List.range' span.startLine span.lineCount

theorem Span.disjoint_lines {a b : Span} (stops : a.stop ≤ b.startLine) :
    a.lines.Disjoint b.lines := by
  intro line inside inside'
  rw [lines, List.mem_range'_1] at inside inside'
  rw [stop] at stops
  omega

namespace Section

/-- A section stands before another if its file comes first, or on an earlier line of the same
file. -/
def Before (a b : Section) : Prop :=
  compare a.file.components b.file.components = .lt ∨
    a.file.components = b.file.components ∧ a.callLine < b.callLine

theorem Before.asymm {a b : Section} (before : a.Before b) : ¬ b.Before a := by
  rintro (file | ⟨same, line⟩) <;> rcases before with file' | ⟨same', line'⟩
  · exact Std.OrientedCmp.not_lt_of_lt file file'
  · rw [same', Std.ReflOrd.compare_self] at file
    contradiction
  · rw [same, Std.ReflOrd.compare_self] at file'
    contradiction
  · omega

/-- A section stands before another, and if both are in one file, its span stops at the other's line
or in front of it, and the other's span starts behind that line. -/
def EndsBefore (a b : Section) : Prop :=
  a.Before b ∧ (a.file.components = b.file.components →
    a.span.stop ≤ b.callLine ∧ b.callLine < b.span.startLine)

theorem endsBefore_of_file {a b : Section} (file : a.file.precedes b.file = true)
    (differ : a.file.components ≠ b.file.components) : a.EndsBefore b := by
  refine ⟨.inl ?_, fun same => absurd same differ⟩
  unfold Path.precedes at file
  cases order : compare a.file.components b.file.components with
  | lt => rfl
  | eq => exact absurd (Std.LawfulEqOrd.eq_of_compare order) differ
  | gt => simp [order] at file

end Section

/-! ## Calls of one tree -/

namespace CallSite

/-- A call stands behind all line breaks of the calls before it. -/
theorem pairwise_among_lineBreaks (line : Nat) (nodes : List Node) :
    (among line nodes).Pairwise fun a b => a.callLine + Node.lineBreaksIn a.body ≤ b.callLine := by
  induction nodes generalizing line with
  | nil => exact .nil
  | cons node nodes ih =>
      rcases node with _ | ⟨⟨kind, code⟩ | _, body⟩ | _
      · exact ih _
      · refine List.pairwise_cons.mpr ⟨?_, ih _⟩
        intro later behind
        obtain ⟨k, place, -⟩ := occurs_of_mem_among behind
        show line + Node.lineBreaksIn body ≤ later.callLine
        omega
      · exact ih _
      · exact ih _

/-- In a parsed tree, a call stands behind the lines that the calls before it span. -/
theorem pairwise_topLevel {text : String} {root : Node} (parsed : parse text = .ok root) :
    (topLevel root).Pairwise fun a b => a.callLine < b.callLine ∧ a.span.stop ≤ b.callLine := by
  refine (pairwise_among_lineBreaks 0 root.children).imp_of_mem ?_
  intro a b member _ behind
  -- the line of the call has a line break of its own, which its span does not count
  have own : Node.lineBreaksIn a.body = a.lineCount + 1 :=
    (spansLines_of_mem_topLevel parsed member).unsaturated
  have stop : a.span.stop = a.callLine + 1 + a.lineCount := rfl
  omega

end CallSite

/-! ## Sections of an index -/

/-- The sections of a parsed tree stand one behind the other. -/
theorem pairwise_sectionsIn_endsBefore {text : String} {root : Node}
    (parsed : parse text = .ok root) (method : String) (file : Path) :
    (sectionsIn method file root).Pairwise Section.EndsBefore := by
  rw [sectionsIn, List.pairwise_map]
  apply List.Pairwise.filterMap _ _ (CallSite.pairwise_topLevel parsed)
  intro site site' behind entry found entry' found'
  obtain ⟨argument, -, rfl⟩ := Option.map_eq_some_iff.mp found
  obtain ⟨argument', -, rfl⟩ := Option.map_eq_some_iff.mp found'
  exact ⟨.inr ⟨rfl, behind.1⟩, fun _ => ⟨behind.2, Nat.lt_succ_self _⟩⟩

theorem file_of_mem_sectionsFor {cache : Cache} {source : Source} {config : Config} {file : Path}
    {item : Section} (member : item ∈ cache.sectionsFor source config file) : item.file = file := by
  unfold Cache.sectionsFor at member
  split at member
  · exact file_of_mem_sectionsIn member
  · cases member

/-- The sections of files that are found in order stand one behind the other. -/
theorem pairwise_sectionsFor_endsBefore {cache : Cache} (keeps : cache.KeepsParsed)
    {files : List Path} (sorted : files.Pairwise fun a b => a.precedes b = true)
    (distinct : (files.map Path.components).Nodup) (source : Source) (config : Config) :
    (files.flatMap (cache.sectionsFor source config)).Pairwise Section.EndsBefore := by
  rw [List.pairwise_flatMap]
  constructor
  · intro file _
    unfold Cache.sectionsFor
    split
    · next root current =>
      obtain ⟨text, parsed⟩ := keeps.exists_of_currentTree? current
      exact pairwise_sectionsIn_endsBefore parsed _ _
    · exact .nil
  · refine (sorted.and (List.pairwise_map.mp distinct)).imp ?_
    rintro file file' ⟨le, differ⟩ item member item' member'
    obtain rfl := file_of_mem_sectionsFor member
    obtain rfl := file_of_mem_sectionsFor member'
    exact Section.endsBefore_of_file le differ

/-! ## Searching -/

/-- The section has the argument, and no section with the argument stands before it. -/
structure Index.IsFirst (index : Index) (argument : String) (item : Section) : Prop where
  listed : item ∈ index.sections
  named : item.argument = argument
  least : ∀ other ∈ index.sections, other.argument = argument → other = item ∨ item.Before other

theorem Index.IsFirst.unique {index : Index} {argument : String} {item other : Section}
    (first : index.IsFirst argument item) (first' : index.IsFirst argument other) : item = other := by
  rcases first.least other first'.listed first'.named with rfl | before
  · rfl
  · rcases first'.least item first.listed first.named with rfl | before'
    · rfl
    · exact absurd before' before.asymm

namespace Index

/-- What is found in sections that are in order is the first with the argument. -/
theorem isFirst_of_find? {index : Index} (sorted : index.sections.Pairwise Section.Before)
    {argument : String} {item : Section} (found : index.find? argument = some item) :
    index.IsFirst argument item := by
  obtain ⟨named, front, back, split, passed⟩ := List.find?_eq_some_iff_append.mp found
  refine ⟨by rw [split]; simp, by simpa using named, ?_⟩
  intro other member asked
  rw [split] at member sorted
  rcases List.mem_append.mp member with early | late
  · have differ := passed other early
    simp [asked] at differ
  · rcases List.mem_cons.mp late with rfl | behind
    · exact .inl rfl
    · have tail := (List.pairwise_append.mp sorted).2.1
      exact .inr (List.rel_of_pairwise_cons tail behind)

theorem find?_eq_some_iff_isFirst {index : Index}
    (sorted : index.sections.Pairwise Section.Before) {argument : String} {item : Section} :
    index.find? argument = some item ↔ index.IsFirst argument item := by
  refine ⟨isFirst_of_find? sorted, fun first => ?_⟩
  cases found : index.find? argument with
  | none =>
      have passed := List.find?_eq_none.mp found item first.listed
      simp [first.named] at passed
  | some other => rw [(isFirst_of_find? sorted found).unique first]

/-- The sections of an index increase strictly by file and line, so no two of them share both; in
one file the span of every section stops at the line of the next or in front of it, and no two spans
share a line.  A search finds the least section with an argument, or nothing if no section has it.
All this is so whatever the files hold, wherever else their texts are read from, and whatever parsed
trees the cache keeps already.  The cache that is left behind keeps nothing but parsed trees again. -/
theorem build_ordered {cache : Cache} (keeps : cache.KeepsParsed) (disk : Disk)
    (read : Path → Except ReadError String) (config : Config) (root : Path) :
    let source : Source := { disk.source with read }
    let result := (Index.build source config root).run cache
    let index := result.1
    index.sections.Pairwise Section.Before ∧
      (index.sections.map fun item => (item.file.components, item.callLine)).Nodup ∧
      (index.sections.Pairwise fun a b => a.file.components = b.file.components →
        a.span.stop ≤ b.callLine ∧ a.span.lines.Disjoint b.span.lines) ∧
      (∀ argument,
        (∀ item, index.find? argument = some item ↔ index.IsFirst argument item) ∧
        (index.find? argument = none ↔ ∀ item ∈ index.sections, item.argument ≠ argument)) ∧
      result.2.KeepsParsed := by
  intro source result index
  have distinct : ((source.filesBelow root).map Path.components).Nodup := disk.nodup_filesBelow root
  have endsBefore : index.sections.Pairwise Section.EndsBefore := by
    have sections : index.sections =
        (findTemplates source config root).flatMap (cache.sectionsFor source config) :=
      congrArg Index.sections (build_run distinct config cache)
    rw [sections]
    exact pairwise_sectionsFor_endsBefore keeps (pairwise_findTemplates _ _ _)
      (nodup_findTemplates distinct config) _ _
  have sorted : index.sections.Pairwise Section.Before := endsBefore.imp And.left
  refine ⟨sorted, ?places, ?spans, fun argument => ⟨?found, ?missing⟩, keeps.build _ _ _⟩
  case places =>
    rw [List.Nodup, List.pairwise_map]
    refine sorted.imp ?_
    intro a b before same
    obtain ⟨file, line⟩ := Prod.mk.inj same
    rcases before with differ | ⟨-, less⟩
    · rw [file, Std.ReflOrd.compare_self] at differ
      contradiction
    · omega
  case spans =>
    refine endsBefore.imp ?_
    intro a b ends same
    obtain ⟨stops, starts⟩ := ends.2 same
    exact ⟨stops, Span.disjoint_lines (stops.trans starts.le)⟩
  case found =>
    exact fun item => find?_eq_some_iff_isFirst sorted
  case missing =>
    simp [find?]

/-- Two templates that have a section with the same argument. -/
def twiceNamed : Disk :=
  (Disk.empty.put ⟨"d/b.slim"⟩ "- kss_block '1'\n".toUTF8).put
    ⟨"d/a.slim"⟩ "- kss_block '2'\n  p\n\n- kss_block '1'\n".toUTF8

/-- The first template has been broken since its tree was kept.  Its sections are still listed, and
of the two with the argument, the one that stands there is found. -/
theorem build_ordered_stale :
    let session := ({ storage := .onDisk twiceNamed } : Session).run [.parse ⟨"d/a.slim"⟩]
    let disk := twiceNamed.put ⟨"d/a.slim"⟩ "-\n".toUTF8
    let index := ((Index.build disk.source {} ⟨"d"⟩).run session.cache).1
    session.cache.KeepsParsed ∧
      index.sections = [⟨"2", ⟨"d/a.slim"⟩, 0, ⟨1, 2⟩, none⟩, ⟨"1", ⟨"d/a.slim"⟩, 3, ⟨4, 0⟩, none⟩,
        ⟨"1", ⟨"d/b.slim"⟩, 0, ⟨1, 0⟩, none⟩] ∧
      index.sections.Pairwise Section.Before ∧
      index.find? "1" = some ⟨"1", ⟨"d/a.slim"⟩, 3, ⟨4, 0⟩, none⟩ := by
  intro session disk index
  have keeps : session.cache.KeepsParsed := Session.keepsParsed_run .empty _
  have found : findTemplates disk.source {} ⟨"d"⟩ = [⟨"d/a.slim"⟩, ⟨"d/b.slim"⟩] :=
    findTemplates_of_ordered (by decide +kernel) (by decide +kernel)
  have sections : index.sections = [⟨"2", ⟨"d/a.slim"⟩, 0, ⟨1, 2⟩, none⟩,
      ⟨"1", ⟨"d/a.slim"⟩, 3, ⟨4, 0⟩, none⟩, ⟨"1", ⟨"d/b.slim"⟩, 0, ⟨1, 0⟩, none⟩] := by
    have gathered : index.sections = (findTemplates disk.source {} ⟨"d"⟩).flatMap
        (session.cache.sectionsFor disk.source {}) :=
      congrArg Index.sections (build_run (disk.nodup_filesBelow ⟨"d"⟩) {} session.cache)
    rw [gathered, found]
    decide +kernel
  obtain ⟨sorted, -, -, search, -⟩ := build_ordered keeps disk disk.source.read {} ⟨"d"⟩
  refine ⟨keeps, sections, sorted, ((search "1").1 _).mpr ⟨?listed, rfl, ?least⟩⟩
  case listed =>
    rw [sections]
    decide
  case least =>
    rw [sections]
    intro other member named
    simp only [List.mem_cons, List.not_mem_nil, or_false] at member
    obtain rfl | rfl | rfl := member
    · contradiction
    · exact .inl rfl
    · exact .inr (.inl (by decide +kernel))

end Index

end Specimen
