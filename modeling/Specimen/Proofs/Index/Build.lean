/-
# Specimen.Proofs.Index.Build — the index of a directory.

The templates of a directory are found in the order of their components, each once, and the calls of
a tree come in the order of their lines.  So the sections are gathered in the order of files and
lines, and to sort them once more changes nothing.  `build_complete` says what the index holds: for
each template what its own tree gives, and nothing that depends on the others.
-/
import Specimen.Proofs.CallSite.LineNumbers
import Specimen.Proofs.Disk.Listing
import Specimen.Proofs.Index.Gather

namespace Specimen

open Template

/-! ## The order of paths -/

instance : Std.LawfulEqOrd Component where
  eq_of_compare {a b} same := by
    have parts : compareOn Component.rank a b = .eq ∧ compareOn Component.nameBytes a b = .eq :=
      compareLex_eq_eq.mp same
    obtain ⟨rank, bytes⟩ := parts
    rw [compareOn, Std.LawfulEqOrd.compare_eq_iff_eq] at rank bytes
    cases a with
    | name held =>
        cases b with
        | name held' =>
            obtain ⟨bytes₁, _⟩ := held
            obtain ⟨bytes₂, _⟩ := held'
            obtain rfl : bytes₁ = bytes₂ := bytes
            rfl
        | _ => cases rank
    | _ => cases b <;> first | rfl | cases rank

theorem Path.precedes_trans (a b c : Path) (ab : a.precedes b = true) (bc : b.precedes c = true) :
    a.precedes c = true :=
  Std.TransOrd.isLE_trans ab bc

theorem Path.precedes_total (a b : Path) : (a.precedes b || b.precedes a) = true := by
  unfold precedes
  rw [Std.OrientedOrd.eq_swap (a := b.components)]
  cases compare a.components b.components <;> rfl

/-- Templates are found in order. -/
theorem pairwise_findTemplates (source : Source) (config : Config) (root : Path) :
    (findTemplates source config root).Pairwise fun a b => a.precedes b = true :=
  List.pairwise_mergeSort Path.precedes_trans Path.precedes_total _

/-- Templates that are listed in order are found as they are listed. -/
theorem findTemplates_of_ordered {source : Source} {config : Config} {root : Path}
    {paths : List Path}
    (listed : ((source.filesBelow root).filter fun path =>
      !path.isIgnored && config.matchesExtension path) = paths)
    (ordered : paths.Pairwise fun a b => a.precedes b = true) :
    findTemplates source config root = paths := by
  rw [findTemplates, listed]
  exact List.mergeSort_of_pairwise ordered

/-- Each template is found once. -/
theorem nodup_findTemplates {source : Source} {root : Path}
    (distinct : ((source.filesBelow root).map Path.components).Nodup) (config : Config) :
    ((findTemplates source config root).map Path.components).Nodup := by
  unfold findTemplates
  rw [((List.mergeSort_perm _ _).map Path.components).nodup_iff]
  exact distinct.sublist (List.filter_sublist.map _)

/-! ## The order of sections -/

/-- Calls come in the order of their lines. -/
theorem CallSite.pairwise_among (line : Nat) (nodes : List Node) :
    (among line nodes).Pairwise fun a b => a.callLine ≤ b.callLine := by
  induction nodes generalizing line with
  | nil => exact .nil
  | cons node nodes ih =>
      rcases node with _ | ⟨⟨kind, code⟩ | _, body⟩ | _
      · exact ih _
      · refine List.pairwise_cons.mpr ⟨?_, ih _⟩
        intro later behind
        obtain ⟨k, place, -⟩ := occurs_of_mem_among behind
        show line ≤ later.callLine
        omega
      · exact ih _
      · exact ih _

namespace Section

theorem precedes_of_line_le {a b : Section} (file : a.file = b.file)
    (line : a.callLine ≤ b.callLine) : a.precedes b = true := by
  unfold precedes
  rw [file, Std.ReflOrd.compare_self, Ordering.eq_then]
  exact Nat.isLE_compare.mpr line

theorem precedes_of_file {a b : Section} (file : a.file.precedes b.file = true)
    (differ : a.file.components ≠ b.file.components) : a.precedes b = true := by
  unfold precedes
  unfold Path.precedes at file
  cases order : compare a.file.components b.file.components with
  | lt => rfl
  | eq => exact absurd (Std.LawfulEqOrd.eq_of_compare order) differ
  | gt => simp [order] at file

end Section

theorem file_of_mem_sectionsIn {method : String} {file : Path} {root : Node} {item : Section}
    (member : item ∈ sectionsIn method file root) : item.file = file := by
  obtain ⟨entry, -, rfl⟩ := List.mem_map.mp member
  rfl

theorem pairwise_sectionsIn (method : String) (file : Path) (root : Node) :
    (sectionsIn method file root).Pairwise fun a b => a.precedes b = true := by
  rw [sectionsIn, List.pairwise_map]
  apply List.Pairwise.filterMap _ _ (CallSite.pairwise_among 0 root.children)
  intro site site' le entry found entry' found'
  obtain ⟨argument, -, rfl⟩ := Option.map_eq_some_iff.mp found
  obtain ⟨argument', -, rfl⟩ := Option.map_eq_some_iff.mp found'
  exact Section.precedes_of_line_le rfl le

/-- Sections that are gathered in the order of files are in order. -/
theorem pairwise_sectionsFor {files : List Path}
    (sorted : files.Pairwise fun a b => a.precedes b = true)
    (distinct : (files.map Path.components).Nodup) (cache : Cache) (source : Source)
    (config : Config) :
    (files.flatMap (cache.sectionsFor source config)).Pairwise fun a b => a.precedes b = true := by
  rw [List.pairwise_flatMap]
  constructor
  · intro file _
    unfold Cache.sectionsFor
    split
    · exact pairwise_sectionsIn _ _ _
    · exact .nil
  · rw [List.Nodup, List.pairwise_map] at distinct
    refine (sorted.and distinct).imp ?_
    rintro file file' ⟨before, differ⟩ item inside item' inside'
    have home : ∀ {file item}, item ∈ cache.sectionsFor source config file → item.file = file := by
      intro file item inside
      unfold Cache.sectionsFor at inside
      split at inside
      · exact file_of_mem_sectionsIn inside
      · cases inside
    obtain rfl := home inside
    obtain rfl := home inside'
    exact Section.precedes_of_file before differ

/-! ## The index -/

/-- The index of a directory in which no file is listed twice: the sections of all templates, one
template after the other, and the number of those that were passed over. -/
theorem Index.build_run {source : Source} {root : Path}
    (distinct : ((source.filesBelow root).map Path.components).Nodup) (config : Config)
    (cache : Cache) :
    ((Index.build source config root).run cache).1 =
      ⟨(findTemplates source config root).flatMap (cache.sectionsFor source config),
        ((findTemplates source config root).filter (cache.passesOver source)).length⟩ := by
  have found := nodup_findTemplates distinct config
  have gathered := (gather_run source config found cache).1
  have built : ((Index.build source config root).run cache).1 =
      { ((Index.gather source config (findTemplates source config root)).run cache).1 with
        sections := ((Index.gather source config (findTemplates source config root)).run
          cache).1.sections.mergeSort Section.precedes } := rfl
  rw [built, gathered]
  exact congrArg (Index.mk · _) (List.mergeSort_of_pairwise
    (pairwise_sectionsFor (pairwise_findTemplates _ _ _) found _ _ _))

/-- With a cache that keeps nothing yet, a section of a template is a call in the tree that its file
has. -/
theorem exists_of_mem_sectionsFor {source : Source} {config : Config} {file : Path}
    {item : Section} (member : item ∈ Cache.sectionsFor {} source config file) :
    ∃ text root entry, source.read file = .ok text ∧ parse text = .ok root ∧
      entry ∈ CallSite.list root config.method ∧ item = Section.ofSite file entry.1 entry.2 := by
  have fresh : Cache.currentTree? {} source file = (parseFile source file).toOption := rfl
  rw [Cache.sectionsFor, fresh] at member
  cases parsed : parseFile source file with
  | error fault =>
      rw [parsed] at member
      cases member
  | ok root =>
      rw [parsed] at member
      obtain ⟨text, read, tree⟩ := parseFile_eq_ok_iff.mp parsed
      obtain ⟨entry, listed, same⟩ := List.mem_map.mp member
      exact ⟨text, root, entry, read, tree, listed, same.symm⟩

/-- The index of a directory has the sections of all templates that are found there, template by
template in their order: the calls in the tree that is kept for the template, or else in the one
that its file has now.  A template with neither is counted as passed over and changes nothing for
the others.  The sections are in order as they are gathered.  What the cache gains is one template
for each that was not kept and could be read and parsed. -/
theorem Index.build_complete (disk : Disk) (config : Config) (root : Path) (cache : Cache) :
    let files := findTemplates disk.source config root
    let sections := files.flatMap (cache.sectionsFor disk.source config)
    let result := (Index.build disk.source config root).run cache
    result.1 = ⟨sections, (files.filter (cache.passesOver disk.source)).length⟩ ∧
      sections.mergeSort Section.precedes = sections ∧
      result.2.templates = cache.templates ++ files.filterMap (cache.added? disk.source) ∧
      (files.map Path.components).Nodup := by
  intro files sections result
  have distinct : (files.map Path.components).Nodup :=
    nodup_findTemplates (disk.nodup_filesBelow root) config
  have sorted : sections.mergeSort Section.precedes = sections :=
    List.mergeSort_of_pairwise (pairwise_sectionsFor (pairwise_findTemplates _ _ _) distinct _ _ _)
  obtain ⟨index, templates⟩ := gather_run disk.source config distinct cache
  have built : result = ({ ((Index.gather disk.source config files).run cache).1 with
      sections := ((Index.gather disk.source config files).run cache).1.sections.mergeSort
        Section.precedes }, ((Index.gather disk.source config files).run cache).2) := rfl
  rw [built]
  refine ⟨?_, sorted, templates, distinct⟩
  rw [index]
  exact congrArg (Index.mk · _) sorted

end Specimen
