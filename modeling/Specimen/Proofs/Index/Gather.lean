/-
# Specimen.Proofs.Index.Gather — the sections of several templates.

Gathering goes from template to template with one cache, and one step of it is one lookup: its tree
gives sections, or else the template is counted as passed over.  What an earlier step keeps is of no
concern to a later one, unless both ask for the same file.  So if no file is asked for twice, every
template gives what it would give by itself, and `gather_run` says what that is.
-/
import Mathlib.Data.List.Basic
import Specimen.Index
import Specimen.Proofs.Cache.Work

namespace Specimen

open Template

/-! ## One template -/

/-- The sections in the tree of a template. -/
def sectionsIn (method : String) (file : Path) (root : Node) : List Section :=
  (CallSite.list root method).map fun (argument, site) => Section.ofSite file argument site

/-- The index with one more template in front, or with one more that was passed over. -/
def Index.withTemplate (index : Index) (method : String) (file : Path) :
    Except ExtractError Node → Index
  | .ok root => { index with sections := sectionsIn method file root ++ index.sections }
  | .error _ => { index with skipped := index.skipped + 1 }

theorem sectionsOf_run (source : Source) (config : Config) (file : Path) (cache : Cache) :
    (Index.sectionsOf source config file).run.run cache =
      ((Cache.template source file).run.run cache).map
        (·.map (sectionsIn config.method file)) id := by
  rw [Index.sectionsOf, run_bind]
  rcases (Cache.template source file).run.run cache with ⟨_ | root, after⟩ <;> rfl

theorem gather_cons_run (source : Source) (config : Config) (file : Path) (files : List Path)
    (cache : Cache) :
    (Index.gather source config (file :: files)).run cache =
      let lookup : Lookup := ⟨source, file, cache⟩
      ((Index.gather source config files).run lookup.after).map
        (·.withTemplate config.method file lookup.answer) id := by
  rw [Index.gather, StateT.run_bind, sectionsOf_run]
  simp only [Lookup.after, Lookup.answer, Lookup.outcome]
  rcases (Cache.template source file).run.run cache with ⟨_ | root, after⟩ <;> rfl

/-! ## Trees for an index -/

namespace Cache

/-- The tree that a template has for an index: the one that is kept, or else the one that is in the
file now, if there is one. -/
def currentTree? (cache : Cache) (source : Source) (path : Path) : Option Node :=
  match cache.find? path with
  | some root => some root
  | none => (parseFile source path).toOption

/-- What an index adds to the cache for a template: its tree, if that is not kept yet and the file
can be read and parsed. -/
def added? (cache : Cache) (source : Source) (path : Path) : Option (List Component × Node) :=
  match cache.find? path with
  | some _ => none
  | none => (parseFile source path).toOption.map fun root => (path.components, root)

end Cache

namespace Lookup

theorem toOption_answer (lookup : Lookup) :
    lookup.answer.toOption = lookup.cache.currentTree? lookup.files lookup.path := by
  cases lookup.ends with
  | kept found outcome =>
      rw [answer, outcome, Cache.currentTree?, found]
      rfl
  | parsed fresh parsed outcome | failed fresh parsed outcome =>
      rw [answer, outcome, Cache.currentTree?, fresh, parsed]

theorem templates_after (lookup : Lookup) :
    lookup.after.templates =
      lookup.cache.templates ++ (lookup.cache.added? lookup.files lookup.path).toList := by
  cases lookup.ends with
  | kept found outcome =>
      rw [after, outcome, Cache.added?, found]
      exact (List.append_nil _).symm
  | parsed fresh parsed outcome =>
      rw [after, outcome, Cache.added?, fresh, parsed]
      rfl
  | failed fresh failed outcome =>
      rw [after, outcome, Cache.added?, fresh, failed]
      exact (List.append_nil _).symm

/-- A lookup is of no concern to other files. -/
theorem find?_after_of_ne {lookup : Lookup} {other : Path}
    (differ : other.components ≠ lookup.path.components) :
    lookup.after.find? other = lookup.cache.find? other := by
  cases lookup.ends with
  | kept _ outcome => rw [after, outcome]
  | failed _ _ outcome => rw [after, outcome, Cache.find?_countRead]
  | parsed _ _ outcome =>
      rw [after, outcome, Cache.find?_keep, if_neg differ, Option.or_none, Cache.find?_countRead]

end Lookup

/-! ## All templates -/

/-- The sections that a template adds to an index, if it has a tree. -/
def Cache.sectionsFor (cache : Cache) (source : Source) (config : Config) (file : Path) :
    List Section :=
  match cache.currentTree? source file with
  | some root => sectionsIn config.method file root
  | none => []

/-- Whether an index passes a template over. -/
def Cache.passesOver (cache : Cache) (source : Source) (file : Path) : Bool :=
  (cache.currentTree? source file).isNone

theorem withTemplate_eq (index : Index) (source : Source) (config : Config) (file : Path)
    (cache : Cache) :
    index.withTemplate config.method file (Lookup.mk source file cache).answer =
      ⟨cache.sectionsFor source config file ++ index.sections,
        index.skipped + (cache.passesOver source file).toNat⟩ := by
  rw [Cache.sectionsFor, Cache.passesOver, ← (Lookup.mk source file cache).toOption_answer]
  cases (Lookup.mk source file cache).answer <;> rfl

/-- Gathering from files that are all different gives for each what is kept or is in the file, one
after the other. -/
theorem gather_run (source : Source) (config : Config) {files : List Path}
    (distinct : (files.map Path.components).Nodup) (cache : Cache) :
    ((Index.gather source config files).run cache).1 =
        ⟨files.flatMap (cache.sectionsFor source config),
          (files.filter (cache.passesOver source)).length⟩ ∧
      ((Index.gather source config files).run cache).2.templates =
        cache.templates ++ files.filterMap (cache.added? source) := by
  induction files generalizing cache with
  | nil => exact ⟨rfl, (List.append_nil _).symm⟩
  | cons file files ih =>
      let lookup : Lookup := ⟨source, file, cache⟩
      obtain ⟨fresh, others⟩ := List.nodup_cons.mp distinct
      -- the other files find the cache as they would without this one
      have same : ∀ other ∈ files, lookup.after.find? other = cache.find? other := by
        intro other member
        apply Lookup.find?_after_of_ne
        intro equal
        exact fresh (equal ▸ List.mem_map_of_mem member)
      have trees : ∀ other ∈ files,
          lookup.after.currentTree? source other = cache.currentTree? source other := by
        intro other member
        rw [Cache.currentTree?, Cache.currentTree?, same other member]
      have sections : files.map (lookup.after.sectionsFor source config) =
          files.map (cache.sectionsFor source config) := by
        refine List.map_congr_left fun other member => ?_
        rw [Cache.sectionsFor, Cache.sectionsFor, trees other member]
      have skipped : files.filter (lookup.after.passesOver source) =
          files.filter (cache.passesOver source) := by
        refine List.filter_congr fun other member => ?_
        rw [Cache.passesOver, Cache.passesOver, trees other member]
      have added : files.filterMap (lookup.after.added? source) =
          files.filterMap (cache.added? source) := by
        refine List.filterMap_congr fun other member => ?_
        rw [Cache.added?, Cache.added?, same other member]
      obtain ⟨index, templates⟩ := ih others lookup.after
      rw [gather_cons_run]
      constructor
      · rw [Prod.map_fst, index, withTemplate_eq, List.flatMap_def, sections, skipped,
          List.flatMap_cons, List.flatMap_def, List.filter_cons]
        cases cache.passesOver source file <;> rfl
      · rw [Prod.map_snd, id_eq, templates, added, lookup.templates_after, List.filterMap_cons,
          List.append_assoc]
        cases cache.added? source file <;> rfl

end Specimen
