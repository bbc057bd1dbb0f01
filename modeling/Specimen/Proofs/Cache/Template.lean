/-
# Specimen.Proofs.Cache.Template — what work with a cache gives and leaves behind.

Work with a cache gives a result and leaves a cache.  The lemmas here say for each piece of such
work what both are: a read is counted and changes nothing else; a template that is kept is handed
out as it is; any other one is read and parsed as the file stands, and is kept if that succeeds.
What is proved of extractions, of the index and of whole sessions goes through these equations and
does not unfold the work again.
-/
import Specimen.Extraction

namespace Specimen

open Template

/-! ## Past the cache -/

/-- The text of a file as it stands. -/
def readText (source : Source) (path : Path) : Except ExtractError String :=
  (source.read path).mapError (.read path)

/-- The tree of a file as it stands. -/
def parseFile (source : Source) (path : Path) : Except ExtractError Node :=
  match readText source path with
  | .error fault => .error fault
  | .ok text => (parse text).mapError (.parse path)

/-- The first call in a tree that a query asks for, if there is a tree. -/
def siteOf (path : Path) (query : CallSite.Query) :
    Except ExtractError Node → Except ExtractError CallSite
  | .error fault => .error fault
  | .ok root =>
    match CallSite.locate root query with
    | some site => .ok site
    | none => .error (.callSiteNotFound path query.method query.argument)

/-- Errors that are put in other words leave the results alone. -/
theorem mapError_eq_ok_iff {ε ε' α : Type} {f : ε → ε'} {result : Except ε α} {value : α} :
    result.mapError f = .ok value ↔ result = .ok value := by
  cases result with
  | error fault => exact ⟨nofun, nofun⟩
  | ok other =>
      show Except.ok other = .ok value ↔ _
      rw [Except.ok.injEq, Except.ok.injEq]

theorem readText_eq_ok_iff {source : Source} {path : Path} {text : String} :
    readText source path = .ok text ↔ source.read path = .ok text :=
  mapError_eq_ok_iff

theorem parseFile_eq_ok_iff {source : Source} {path : Path} {root : Node} :
    parseFile source path = .ok root ↔
      ∃ text, source.read path = .ok text ∧ parse text = .ok root := by
  unfold parseFile
  split
  · next fault unread =>
    have none : ∀ text, source.read path ≠ .ok text := by
      intro text read
      rw [readText_eq_ok_iff.mpr read] at unread
      contradiction
    simp [none]
  · next text read =>
    rw [readText_eq_ok_iff] at read
    rw [mapError_eq_ok_iff]
    simp [read]

/-! ## Work in general -/

/-- Work that goes on with a result meets the cache that was left behind, and a failure ends it. -/
theorem run_bind {α β : Type} (work : Caching α) (next : α → Caching β) (cache : Cache) :
    (work >>= next).run.run cache =
      match work.run.run cache with
      | (.ok result, after) => (next result).run.run after
      | (.error fault, after) => (.error fault, after) := by
  rw [ExceptT.run_bind, StateT.run_bind]
  rcases work.run.run cache with ⟨_ | _, after⟩ <;> rfl

theorem run_get (cache : Cache) : (get : Caching Cache).run.run cache = (.ok cache, cache) := rfl

namespace Cache

variable {source : Source} {path : Path} {cache : Cache}

/-! ## The parts of a cache -/

@[simp]
theorem templates_countRead (cache : Cache) : cache.countRead.templates = cache.templates := rfl

@[simp]
theorem find?_countRead (cache : Cache) (path : Path) :
    cache.countRead.find? path = cache.find? path := rfl

@[simp]
theorem templates_keep (cache : Cache) (path : Path) (root : Node) :
    (cache.keep path root).templates = cache.templates ++ [(path.components, root)] := rfl

/-- What is kept depends on the components of a path only. -/
theorem find?_congr {other : Path} (same : path.components = other.components) (cache : Cache) :
    cache.find? path = cache.find? other := by
  rw [find?, find?, same]

/-- Keeping one more template does not hide any that are kept. -/
theorem find?_keep (cache : Cache) (path other : Path) (root : Node) :
    (cache.keep path root).find? other =
      (cache.find? other).or (if other.components = path.components then some root else none) := by
  rw [find?, templates_keep, List.lookup_append]
  congr 1
  by_cases same : other.components = path.components
  · rw [if_pos same, same, List.lookup_cons_self]
  · have differ : (other.components == path.components) = false := by simpa using same
    rw [if_neg same, List.lookup_cons, differ]
    rfl

theorem find?_eq_none_iff :
    cache.find? path = none ↔ path.components ∉ cache.templates.map Prod.fst := by
  rw [find?, List.lookup_eq_none_iff]
  constructor
  · intro differ member
    obtain ⟨entry, inside, same⟩ := List.mem_map.mp member
    have other := differ entry inside
    simp [same] at other
  · intro absent entry inside
    have differ : path.components ≠ entry.1 := fun same =>
      absent (same ▸ List.mem_map_of_mem inside)
    simpa using differ

/-! ## Requests -/

theorem read_run (source : Source) (path : Path) (cache : Cache) :
    (read source path).run.run cache = (readText source path, cache.countRead) := by
  unfold read readText
  cases source.read path <;> rfl

/-- A template that is kept is handed out as it is. -/
theorem template_of_kept {root : Node} (kept : cache.find? path = some root) :
    (template source path).run.run cache = (.ok root, cache) := by
  simp only [template, run_bind, run_get, kept]
  rfl

/-- A template that is not kept is read and parsed, and then kept. -/
theorem template_of_parsed {root : Node} (fresh : cache.find? path = none)
    (parsed : parseFile source path = .ok root) :
    (template source path).run.run cache = (.ok root, cache.countRead.keep path root) := by
  obtain ⟨text, read, tree⟩ := parseFile_eq_ok_iff.mp parsed
  simp only [template, run_bind, run_get, fresh, read_run, readText_eq_ok_iff.mpr read, tree]
  rfl

/-- A template that is not kept and cannot be read or parsed leaves nothing but the count of the
read. -/
theorem template_of_fault {fault : ExtractError} (fresh : cache.find? path = none)
    (failed : parseFile source path = .error fault) :
    (template source path).run.run cache = (.error fault, cache.countRead) := by
  simp only [template, run_bind, run_get, fresh, read_run]
  unfold parseFile at failed
  split at failed
  · next unread =>
    rw [unread, ← failed]
  · next text read =>
    rw [read]
    cases parsed : parse text with
    | ok root =>
        rw [mapError_eq_ok_iff.mpr parsed] at failed
        contradiction
    | error reason =>
        rw [parsed] at failed
        obtain rfl : ExtractError.parse path reason = fault := Except.error.inj failed
        simp only [parsed]
        rfl

end Cache

/-! ## Extractions -/

variable (source : Source) (config : Config) (path : Path) (cache : Cache)

theorem extractSpan_run (span : Span) :
    (extractSpan source config path span).run.run cache =
      ((readText source path).map (span.cut config.indentWidth), cache.countRead) := by
  rw [extractSpan, run_bind, Cache.read_run]
  cases readText source path <;> rfl

theorem findSite_run (query : CallSite.Query) :
    (findSite source path query).run.run cache =
      (((Cache.template source path).run.run cache).map (siteOf path query) id) := by
  rw [findSite, run_bind]
  rcases (Cache.template source path).run.run cache with ⟨_ | root, after⟩
  · rfl
  · simp only [Prod.map_apply, siteOf]
    cases CallSite.locate root query <;> rfl

end Specimen
