/-
# Specimen.Proofs.Session.Lookups — the templates that a session keeps.

The lookups of a session, taken over all its requests, decide alone what its cache keeps.  The first
lookup of a path that gives a tree has read it from the file as it was then, and from there on every
lookup of an equal path gives this tree, without a read and whatever has become of the file.
Before, every lookup reads the file, fails and keeps nothing.  So what is kept grows by one template
with each path that succeeds for the first time, and never changes otherwise.

`Records` says what a cache has to do with the lookups so far; one lookup keeps it up, then a piece
of work, then a run of requests.
-/
import Mathlib.Data.List.Dedup
import Specimen.Proofs.Session.Plan

namespace Specimen

open Template

/-! ## Successes -/

/-- The first lookup of a path, or of one with equal components, that gave a tree. -/
def firstSuccess? (seen : List Lookup) (path : Path) : Option Lookup :=
  seen.find? fun lookup => lookup.succeeds && lookup.path.components == path.components

/-- The paths that had a success, each once, by their components. -/
def succeededPaths (seen : List Lookup) : List (List Component) :=
  ((seen.filter Lookup.succeeds).map (·.path.components)).dedup

theorem mem_succeededPaths {seen : List Lookup} {key : List Component} :
    key ∈ succeededPaths seen ↔
      ∃ lookup ∈ seen, lookup.succeeds = true ∧ lookup.path.components = key := by
  simp [succeededPaths, and_assoc]

theorem firstSuccess?_eq_none_iff {seen : List Lookup} {path : Path} :
    firstSuccess? seen path = none ↔ path.components ∉ succeededPaths seen := by
  simp [firstSuccess?, mem_succeededPaths]

theorem mem_succeededPaths_append {seen : List Lookup} {lookup : Lookup} {key : List Component} :
    key ∈ succeededPaths (seen ++ [lookup]) ↔
      key ∈ succeededPaths seen ∨ lookup.succeeds = true ∧ lookup.path.components = key := by
  simp only [mem_succeededPaths, List.mem_append, List.mem_singleton, or_and_right, exists_or,
    exists_eq_left]

/-- A first success is among the earlier lookups, or it is the last one. -/
theorem firstSuccess?_append_eq_some_iff {seen : List Lookup} {lookup first : Lookup}
    {path : Path} :
    firstSuccess? (seen ++ [lookup]) path = some first ↔
      firstSuccess? seen path = some first ∨
        firstSuccess? seen path = none ∧ lookup.succeeds = true ∧
          lookup.path.components = path.components ∧ lookup = first := by
  rw [firstSuccess?, List.find?_append, List.find?_singleton, Option.or_eq_some_iff]
  simp [firstSuccess?, and_assoc]

/-! ## What a cache records -/

/-- The cache keeps one template for each path that had a success, and it is the one that was read
at the first. -/
structure Records (seen : List Lookup) (cache : Cache) : Prop where
  distinct : (cache.templates.map Prod.fst).Nodup
  keys : ∀ key, key ∈ cache.templates.map Prod.fst ↔ key ∈ succeededPaths seen
  kept : ∀ path first, firstSuccess? seen path = some first →
    ∃ root, parseFile first.files first.path = .ok root ∧ cache.find? path = some root

theorem records_empty : Records [] {} :=
  ⟨List.nodup_nil, fun key => by simp [succeededPaths], fun path first found => by cases found⟩

namespace Records

variable {seen : List Lookup} {cache : Cache}

theorem find?_eq_none_iff (records : Records seen cache) {path : Path} :
    cache.find? path = none ↔ firstSuccess? seen path = none := by
  rw [Cache.find?_eq_none_iff, records.keys, firstSuccess?_eq_none_iff]

/-- As many templates are kept as paths had a success. -/
theorem length_templates (records : Records seen cache) :
    cache.templates.length = (succeededPaths seen).length := by
  have same : (cache.templates.map Prod.fst).Perm (succeededPaths seen) :=
    (List.perm_ext_iff_of_nodup records.distinct (List.nodup_dedup _)).mpr records.keys
  simpa using same.length_eq

theorem of_templates_eq (records : Records seen cache) {other : Cache}
    (same : other.templates = cache.templates) : Records seen other := by
  obtain ⟨distinct, keys, kept⟩ := records
  refine ⟨by rwa [same], by rwa [same], ?_⟩
  intro path first found
  rw [Cache.find?, same]
  exact kept path first found

/-- A lookup of a path that is kept adds nothing to the record. -/
theorem append_of_kept {lookup : Lookup} {root : Node} (records : Records seen cache)
    (kept : cache.find? lookup.path = some root) : Records (seen ++ [lookup]) cache := by
  have old : lookup.path.components ∈ succeededPaths seen := by
    rw [← records.keys, ← Decidable.not_not (p := _ ∈ _), ← Cache.find?_eq_none_iff, kept]
    simp
  refine ⟨records.distinct, ?_, ?_⟩
  · intro key
    rw [records.keys, mem_succeededPaths_append]
    refine (or_iff_left_of_imp ?_).symm
    rintro ⟨-, rfl⟩
    exact old
  · intro path first found
    rcases firstSuccess?_append_eq_some_iff.mp found with found | ⟨fresh, -, same, -⟩
    · exact records.kept path first found
    · rw [firstSuccess?_eq_none_iff, ← same] at fresh
      contradiction

/-- A lookup that gives a tree for the first time adds its template. -/
theorem append_of_parsed {lookup : Lookup} {root : Node} (records : Records seen cache)
    (fresh : cache.find? lookup.path = none) (succeeds : lookup.succeeds = true)
    (parsed : parseFile lookup.files lookup.path = .ok root) :
    Records (seen ++ [lookup]) (cache.countRead.keep lookup.path root) := by
  have absent := Cache.find?_eq_none_iff.mp fresh
  refine ⟨?_, ?_, ?_⟩
  · rw [Cache.templates_keep, List.map_append, List.nodup_append_comm]
    exact List.nodup_cons.mpr ⟨absent, records.distinct⟩
  · intro key
    rw [Cache.templates_keep, List.map_append, List.mem_append, mem_succeededPaths_append,
      Cache.templates_countRead, records.keys, succeeds]
    simp [eq_comm]
  · intro path first found
    rw [Cache.find?_keep, Cache.find?_countRead]
    rcases firstSuccess?_append_eq_some_iff.mp found with found | ⟨none, -, same, rfl⟩
    · obtain ⟨root, parsed, kept⟩ := records.kept path first found
      exact ⟨root, parsed, by rw [kept]; rfl⟩
    · rw [← records.find?_eq_none_iff] at none
      exact ⟨root, parsed, by rw [none, if_pos same.symm]; rfl⟩

/-- A lookup that fails adds nothing. -/
theorem append_of_failed {lookup : Lookup} (records : Records seen cache)
    (fails : lookup.succeeds = false) : Records (seen ++ [lookup]) cache.countRead := by
  refine ⟨records.distinct, ?_, ?_⟩
  · intro key
    rw [Cache.templates_countRead, records.keys, mem_succeededPaths_append, fails]
    simp
  · intro path first found
    rcases firstSuccess?_append_eq_some_iff.mp found with found | ⟨-, succeeds, -⟩
    · exact records.kept path first found
    · simp [fails] at succeeds

/-- The cache that a lookup leaves behind records it. -/
theorem append {lookup : Lookup} (records : Records seen lookup.cache) :
    Records (seen ++ [lookup]) lookup.after := by
  cases lookup.ends with
  | kept found outcome =>
      rw [Lookup.after, outcome]
      exact records.append_of_kept found
  | parsed fresh parsed outcome =>
      have succeeds : lookup.succeeds = true := by rw [Lookup.succeeds, Lookup.answer, outcome]; rfl
      rw [Lookup.after, outcome]
      exact records.append_of_parsed fresh succeeds parsed
  | failed fresh failed outcome =>
      have fails : lookup.succeeds = false := by rw [Lookup.succeeds, Lookup.answer, outcome]; rfl
      rw [Lookup.after, outcome]
      exact records.append_of_failed fails

end Records

/-! ## Along a session -/

/-- Each lookup meets a cache that records the lookups before it. -/
def AllRecorded (seen : List Lookup) : List Lookup → Prop
  | [] => True
  | lookup :: later => Records seen lookup.cache ∧ AllRecorded (seen ++ [lookup]) later

theorem AllRecorded.append {seen first second : List Lookup} (recorded : AllRecorded seen first)
    (others : AllRecorded (seen ++ first) second) : AllRecorded seen (first ++ second) := by
  induction first generalizing seen with
  | nil => simpa using others
  | cons lookup first ih =>
      refine ⟨recorded.1, ih recorded.2 ?_⟩
      rwa [List.append_assoc, List.singleton_append]

theorem AllRecorded.records {seen earlier later : List Lookup} {lookup : Lookup}
    (recorded : AllRecorded seen (earlier ++ lookup :: later)) :
    Records (seen ++ earlier) lookup.cache := by
  induction earlier generalizing seen with
  | nil => simpa using recorded.1
  | cons other earlier ih =>
      have others := ih recorded.2
      rwa [List.append_assoc, List.singleton_append] at others

/-- Work keeps up the record, lookup by lookup. -/
theorem Records.work {α : Type} (work : Work α) (source : Source) {seen : List Lookup}
    {cache : Cache} (records : Records seen cache) :
    AllRecorded seen (work.lookups source cache) ∧
      Records (seen ++ work.lookups source cache) (work.run source cache).2 := by
  induction work generalizing seen cache with
  | done result => exact ⟨trivial, by simpa [Work.lookups, Work.run] using records⟩
  | template path next ih =>
      have here : Records (seen ++ [_]) (Lookup.after ⟨source, path, cache⟩) := records.append
      obtain ⟨others, final⟩ := ih _ here
      refine ⟨⟨records, others⟩, ?_⟩
      rwa [List.append_assoc] at final
  | text path next ih => exact ih _ (records.of_templates_eq rfl)

namespace Session

/-- A run of requests keeps up the record. -/
theorem records_run {seen : List Lookup} {session : Session} (records : Records seen session.cache)
    (requests : List Request) :
    AllRecorded seen (session.history requests) ∧
      Records (seen ++ session.history requests) (session.run requests).cache := by
  induction requests generalizing seen session with
  | nil => exact ⟨trivial, by simpa [history, run] using records⟩
  | cons request requests ih =>
      obtain ⟨here, after⟩ := records.work (session.plan request) session.storage.source
      rw [← (session.step_changes request).cache] at after
      obtain ⟨others, final⟩ := ih after
      refine ⟨here.append others, ?_⟩
      rwa [List.append_assoc] at final

end Session

/-! ## Growth -/

theorem Lookup.templates_grow (lookup : Lookup) :
    lookup.cache.templates <+: lookup.after.templates := by
  cases lookup.ends with
  | kept _ outcome | parsed _ _ outcome | failed _ _ outcome => simp [after, outcome]

theorem Work.templates_grow {α : Type} (work : Work α) (source : Source) (cache : Cache) :
    cache.templates <+: (work.run source cache).2.templates := by
  induction work generalizing cache with
  | done result => exact List.prefix_refl _
  | template path next ih =>
      have here := (Lookup.mk source path cache).templates_grow
      exact here.trans (ih _ _)
  | text path next ih => exact ih _ cache.countRead

theorem Session.templates_grow (session : Session) (requests : List Request) :
    session.cache.templates <+: (session.run requests).cache.templates := by
  induction requests generalizing session with
  | nil => exact List.prefix_refl _
  | cons request requests ih =>
      have here : session.cache.templates <+: (session.step request).2.cache.templates := by
        rw [(session.step_changes request).cache]
        exact Work.templates_grow _ _ _
      exact here.trans (ih _)

/-- The tree that a lookup gives is kept. -/
theorem Lookup.find?_after {lookup : Lookup} {root : Node} (answer : lookup.answer = .ok root) :
    lookup.after.find? lookup.path = some root := by
  unfold Lookup.answer at answer
  cases lookup.ends with
  | kept kept outcome =>
      rw [outcome] at answer
      rwa [after, outcome, ← Except.ok.inj answer]
  | parsed fresh _ outcome =>
      rw [outcome] at answer
      rw [after, outcome, Cache.find?_keep, Cache.find?_countRead, fresh, if_pos rfl,
        ← Except.ok.inj answer]
      rfl
  | failed _ _ outcome =>
      rw [outcome] at answer
      contradiction

/-- What is kept for a path stays. -/
theorem Cache.find?_of_isPrefix {cache later : Cache} {path : Path} {root : Node}
    (grows : cache.templates <+: later.templates) (kept : cache.find? path = some root) :
    later.find? path = some root := by
  obtain ⟨more, whole⟩ := grows
  rw [find?] at kept ⊢
  rw [← whole, List.lookup_append, kept]
  rfl

/-! ## What decides a lookup -/

/-- What a lookup does is decided by the lookups before it and, until one of them has given a tree
for its path, by the file. -/
structure Lookup.DecidedBy (earlier : List Lookup) (lookup : Lookup) : Prop where
  /-- As long as a path has had no success, its file is read once and nothing is kept. -/
  failing : firstSuccess? (earlier ++ [lookup]) lookup.path = none →
    ∃ fault, parseFile lookup.files lookup.path = .error fault ∧
      lookup.outcome = (.error fault, lookup.cache.countRead)
  /-- The first success is one read too, and its tree is kept. -/
  first : firstSuccess? earlier lookup.path = none → lookup.succeeds = true →
    ∃ text root, lookup.files.read lookup.path = .ok text ∧ parse text = .ok root ∧
      lookup.outcome = (.ok root, lookup.cache.countRead.keep lookup.path root)
  /-- From then on the tree of the first success is given, whatever the file holds by now, and
  nothing is read. -/
  later : ∀ first, firstSuccess? earlier lookup.path = some first →
    ∃ text root, first.files.read first.path = .ok text ∧ parse text = .ok root ∧
      lookup.outcome = (.ok root, lookup.cache)
  /-- Before and afterwards, as many templates are kept as paths have had a success. -/
  before : lookup.cache.templates.length = (succeededPaths earlier).length
  afterwards : lookup.after.templates.length = (succeededPaths (earlier ++ [lookup])).length

theorem Records.decidedBy {earlier : List Lookup} {lookup : Lookup}
    (records : Records earlier lookup.cache) : lookup.DecidedBy earlier := by
  refine ⟨?failing, ?first, ?later, records.length_templates, records.append.length_templates⟩
  case failing =>
    intro none
    -- a tree, wherever it came from, would be kept by now
    have absent := records.append.find?_eq_none_iff.mpr none
    cases ended : lookup.answer with
    | ok root =>
        rw [Lookup.find?_after ended] at absent
        contradiction
    | error fault =>
        cases lookup.ends with
        | failed fresh failed outcome => exact ⟨_, failed, outcome⟩
        | kept _ outcome | parsed _ _ outcome => simp [Lookup.answer, outcome] at ended
  case first =>
    intro none succeeds
    have fresh := records.find?_eq_none_iff.mpr none
    cases lookup.ends with
    | kept found _ => simp [fresh] at found
    | parsed _ parsed outcome =>
        obtain ⟨text, read, tree⟩ := parseFile_eq_ok_iff.mp parsed
        exact ⟨text, _, read, tree, outcome⟩
    | failed _ _ outcome => simp [Lookup.succeeds, Lookup.answer, outcome, Except.isOk,
        Except.toBool] at succeeds
  case later =>
    intro first found
    obtain ⟨root, parsed, kept⟩ := records.kept lookup.path first found
    obtain ⟨text, read, tree⟩ := parseFile_eq_ok_iff.mp parsed
    exact ⟨text, root, read, tree, Cache.template_of_kept kept⟩

/-! ## Numbers of trees -/

namespace Session

theorem answered_grow (session : Session) (requests : List Request) :
    session.answered <+: (session.run requests).answered := by
  induction requests generalizing session with
  | nil => exact List.prefix_refl _
  | cons request requests ih => exact (session.step_changes request).answered.trans (ih _)

/-- A reply with a tree has its path's number, and the tree is the one that is kept from then on. -/
theorem step_parse_spec {session : Session} {path : Path} {number : Nat} {root : Node}
    (reply : (session.step (.parse path)).1 = .ok (.tree number root)) :
    (session.step (.parse path)).2.cache.find? path = some root ∧
      path.components ∈ (session.step (.parse path)).2.answered ∧
      number = (session.step (.parse path)).2.answered.idxOf path.components := by
  rw [step_parse] at reply ⊢
  let lookup : Lookup := ⟨session.storage.source, path, session.cache⟩
  cases answer : lookup.answer with
  | error fault => simp [lookup, answer] at reply
  | ok tree =>
      simp only [lookup, answer, Except.ok.injEq, Reply.tree.injEq] at reply ⊢
      obtain ⟨rfl, rfl⟩ := reply
      obtain ⟨-, member, place⟩ := number_spec { session with cache := lookup.after } path
      refine ⟨?_, member, place⟩
      rw [number_cache]
      exact Lookup.find?_after answer

/-- Of two replies with trees, the numbers are equal exactly if the paths are, and then the trees
are equal too. -/
theorem parse_replies {session : Session} {path path' : Path} {number number' : Nat}
    {root root' : Node} (between : List Request)
    (first : (session.step (.parse path)).1 = .ok (.tree number root))
    (later : ((session.run (.parse path :: between)).step (.parse path')).1 =
      .ok (.tree number' root')) :
    (number = number' ↔ path.components = path'.components) ∧
      (path.components = path'.components → root = root') := by
  obtain ⟨kept, member, rfl⟩ := step_parse_spec first
  obtain ⟨kept', member', rfl⟩ := step_parse_spec later
  have onwards : session.run (.parse path :: between ++ [.parse path']) =
      ((session.run (.parse path :: between)).step (.parse path')).2 := run_append _ _ _
  have answered := (session.step (.parse path)).2.answered_grow (between ++ [.parse path'])
  have templates := (session.step (.parse path)).2.templates_grow (between ++ [.parse path'])
  rw [← run_cons, ← List.cons_append, onwards] at answered templates
  constructor
  · -- the earlier number is still the path's place in the longer list
    have place : (session.step (.parse path)).2.answered.idxOf path.components =
        ((session.run (.parse path :: between)).step (.parse path')).2.answered.idxOf
          path.components := by
      obtain ⟨more, whole⟩ := answered
      rw [← whole, List.idxOf_append_of_mem member]
    rw [place]
    exact List.idxOf_inj (answered.subset member)
  · intro same
    have still := Cache.find?_of_isPrefix templates kept
    rw [Cache.find?_congr same, kept'] at still
    exact (Option.some.inj still).symm

/-! ## Sessions -/

/-- What a session keeps only ever grows, and only by successes.  A request is carried out by its
plan, which looks up the templates that the request asks for and changes the cache in no other way
than by that; each lookup of any request is decided by the ones before it; the templates that are
kept are, after every request, one for each path that has had a success, and none is replaced or
dropped; and replies with trees of one path share one tree. -/
theorem cache_sticky (storage : Storage) (config : Config) (requests : List Request) :
    let start : Session := { storage, config }
    (∀ session : Session, ∀ request, session.step request = session.carryOut (session.plan request) ∧
      (session.step request).2.cache =
        ((session.plan request).run session.storage.source session.cache).2 ∧
      ((session.plan request).lookups session.storage.source session.cache).map Lookup.path =
        session.asked request) ∧
    (∀ earlier lookup later, start.history requests = earlier ++ lookup :: later →
      lookup.DecidedBy earlier) ∧
    ((start.run requests).cache.templates.map Prod.fst).Nodup ∧
    (start.run requests).cache.templates.length =
      (succeededPaths (start.history requests)).length ∧
    (∀ more, (start.run requests).cache.templates <+:
      (start.run (requests ++ more)).cache.templates) ∧
    ∀ path number root between path' number' root',
      ((start.run requests).step (.parse path)).1 = .ok (.tree number root) →
      ((start.run (requests ++ .parse path :: between)).step (.parse path')).1 =
        .ok (.tree number' root') →
      (number = number' ↔ path.components = path'.components) ∧
        (path.components = path'.components → root = root') := by
  intro start
  obtain ⟨recorded, records⟩ := start.records_run records_empty requests
  refine ⟨?_, ?_, records.distinct, records.length_templates, ?_, ?_⟩
  · intro session request
    exact ⟨session.step_eq_carryOut request, (session.step_changes request).cache,
      session.lookups_plan request⟩
  · intro earlier lookup later whole
    rw [whole] at recorded
    exact recorded.records.decidedBy
  · intro more
    rw [run_append]
    exact templates_grow _ more
  · intro path number root between path' number' root' first later
    rw [run_append] at later
    exact parse_replies between first later

/-- A file that is missing, then stored, then replaced by one that has no tree: the tree that was
read in between is the one that is given, under another spelling of the path too. -/
theorem cache_sticky_stale :
    let start : Session := { storage := .inMemory [] }
    let before : List Request := [.parse ⟨"a/b"⟩, .put ⟨"a/b"⟩ "p\n".toUTF8]
    let between : List Request := [.put ⟨"a/b"⟩ "-\n".toUTF8]
    let root : Node := .container [.block (.markup .tag "p") [.lineBreak]]
    ((start.run before).step (.parse ⟨"a/b"⟩)).1 = .ok (.tree 0 root) ∧
      ((start.run (before ++ .parse ⟨"a/b"⟩ :: between)).step (.parse ⟨"a//./b"⟩)).1 =
        .ok (.tree 0 root) ∧
      (⟨"a/b"⟩ : Path).components = (⟨"a//./b"⟩ : Path).components ∧
      (start.run (before ++ .parse ⟨"a/b"⟩ :: between)).cache.templates.length = 1 := by
  intro start before between root
  obtain ⟨-, -, -, -, -, shared⟩ := cache_sticky (.inMemory []) {} before
  obtain ⟨-, -, -, count, -⟩ := cache_sticky (.inMemory []) {} (before ++ .parse ⟨"a/b"⟩ :: between)
  have first : ((start.run before).step (.parse ⟨"a/b"⟩)).1 = .ok (.tree 0 root) :=
    step_parse_of_answer (by decide +kernel) (by decide +kernel)
  have later : ((start.run (before ++ .parse ⟨"a/b"⟩ :: between)).step (.parse ⟨"a//./b"⟩)).1 =
      .ok (.tree 0 root) := step_parse_of_answer (by decide +kernel) (by decide +kernel)
  have same := (shared _ _ _ between _ _ _ first later).1.mp rfl
  refine ⟨first, later, same, ?_⟩
  rw [count]
  decide +kernel

end Session

end Specimen
