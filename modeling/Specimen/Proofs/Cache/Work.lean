/-
# Specimen.Proofs.Cache.Work — what work asks of a cache.

Whatever a session does with its cache, it does by asking: for the tree of a template, or for the
text of a file.  `Work` writes such work down as a tree of questions, each with all the ways to go
on with its answer.  Run with a cache, it asks them one after the other; run without one, it gets
every answer from the files as they stand.  The questions for templates that are met on the way are
the lookups, and each of them remembers the files and the cache that it met.

What every lookup keeps up, every work and every sequence of them keeps up: the inductions over
work are done here, once.
-/
import Specimen.Proofs.Cache.Template

namespace Specimen

open Template

/-! ## Lookups -/

/-- A question for the tree of a template, with the files and the cache that it meets. -/
structure Lookup where
  files : Source
  path : Path
  cache : Cache

namespace Lookup

/-- What the lookup gives, and the cache that it leaves behind. -/
def outcome (lookup : Lookup) : Except ExtractError Node × Cache :=
  (Cache.template lookup.files lookup.path).run.run lookup.cache

/-- The tree that the lookup gives, or why it gives none. -/
def answer (lookup : Lookup) : Except ExtractError Node := lookup.outcome.1

/-- The cache that the lookup leaves behind. -/
def after (lookup : Lookup) : Cache := lookup.outcome.2

/-- Whether the lookup gives a tree. -/
def succeeds (lookup : Lookup) : Bool := lookup.answer.isOk

/-- The three ways in which a lookup can end. -/
inductive Ends (lookup : Lookup) : Prop
  | kept {root : Node} : lookup.cache.find? lookup.path = some root →
      lookup.outcome = (.ok root, lookup.cache) → lookup.Ends
  | parsed {root : Node} : lookup.cache.find? lookup.path = none →
      parseFile lookup.files lookup.path = .ok root →
      lookup.outcome = (.ok root, lookup.cache.countRead.keep lookup.path root) → lookup.Ends
  | failed {fault : ExtractError} : lookup.cache.find? lookup.path = none →
      parseFile lookup.files lookup.path = .error fault →
      lookup.outcome = (.error fault, lookup.cache.countRead) → lookup.Ends

theorem ends (lookup : Lookup) : lookup.Ends := by
  cases found : lookup.cache.find? lookup.path with
  | some root => exact .kept found (Cache.template_of_kept found)
  | none =>
      cases parsed : parseFile lookup.files lookup.path with
      | ok root => exact .parsed found parsed (Cache.template_of_parsed found parsed)
      | error fault => exact .failed found parsed (Cache.template_of_fault found parsed)

end Lookup

/-! ## Work -/

/-- Work that may ask for templates and texts before it is done. -/
inductive Work (α : Type) where
  | done (result : α)
  /-- Asks for the tree of a template. -/
  | template (path : Path) (next : Except ExtractError Node → Work α)
  /-- Asks for the text of a file, past the templates that are kept. -/
  | text (path : Path) (next : Except ExtractError String → Work α)

namespace Work

variable {α β : Type}

/-- Does the work with a cache. -/
def run (source : Source) : Work α → Cache → α × Cache
  | done result, cache => (result, cache)
  | template path next, cache =>
    let lookup : Lookup := ⟨source, path, cache⟩
    (next lookup.answer).run source lookup.after
  | text path next, cache => (next (readText source path)).run source cache.countRead

/-- Does the work without a cache. -/
def runUncached (source : Source) : Work α → α
  | done result => result
  | template path next => (next (parseFile source path)).runUncached source
  | text path next => (next (readText source path)).runUncached source

/-- The lookups that the work makes, one after the other. -/
def lookups (source : Source) : Work α → Cache → List Lookup
  | done _, _ => []
  | template path next, cache =>
    let lookup : Lookup := ⟨source, path, cache⟩
    lookup :: (next lookup.answer).lookups source lookup.after
  | text path next, cache => (next (readText source path)).lookups source cache.countRead

/-- The same work with its result changed. -/
def map (f : α → β) : Work α → Work β
  | done result => done (f result)
  | template path next => template path fun answer => (next answer).map f
  | text path next => text path fun answer => (next answer).map f

theorem run_map (f : α → β) (work : Work α) (source : Source) (cache : Cache) :
    (work.map f).run source cache = (work.run source cache).map f id := by
  induction work generalizing cache with
  | done result => rfl
  | template path next ih => exact ih _ _
  | text path next ih => exact ih _ _

theorem lookups_map (f : α → β) (work : Work α) (source : Source) (cache : Cache) :
    (work.map f).lookups source cache = work.lookups source cache := by
  induction work generalizing cache with
  | done result => rfl
  | template path next ih => exact congrArg (_ :: ·) (ih _ _)
  | text path next ih => exact ih _ _

end Work

end Specimen
