/-
# Specimen.Proofs.Session.Plan — every request as work with the cache.

The plan of a request is the work that it asks of the cache, and what it then makes of the result:
the reply, and whatever else of the session changes.  `step_eq_carryOut` says that answering a
request is carrying out its plan, so that the lookups of a plan are the lookups of the request, and
what holds of all work with a cache holds of all requests.
-/
import Specimen.Proofs.Index.Gather
import Specimen.Proofs.Index.Load
import Specimen.Session

namespace Specimen

open Template

/-! ## Extractions -/

namespace Work

variable (config : Config)

/-- The work of cutting a span out of a file. -/
def extractSpan (path : Path) (span : Span) : Work (Except ExtractError String) :=
  .text path fun text => .done (text.map (span.cut config.indentWidth))

/-- The work of extracting a block from a given line on. -/
def extractFrom (path : Path) (startLine : Nat) (query : CallSite.Query) :
    Work (Except ExtractError String) :=
  .template path fun answer =>
    match siteOf path query answer with
    | .error fault => .done (.error fault)
    | .ok site => extractSpan config path ⟨startLine, site.lineCount⟩

/-- The work of extracting a block with its lines. -/
def extract (path : Path) (query : CallSite.Query) : Work (Except ExtractError Extraction) :=
  .template path fun answer =>
    match siteOf path query answer with
    | .error fault => .done (.error fault)
    | .ok site => (extractSpan config path site.span).map (·.map (⟨site.span, ·⟩))

end Work

section

variable (source : Source) (config : Config) (path : Path) (cache : Cache)

theorem extractSpan_run_eq (span : Span) :
    (extractSpan source config path span).run.run cache =
      (Work.extractSpan config path span).run source cache := by
  rw [extractSpan_run]
  rfl

theorem extractFrom_run_eq (startLine : Nat) (query : CallSite.Query) :
    (extractFrom source config path startLine query).run.run cache =
      (Work.extractFrom config path startLine query).run source cache := by
  rw [extractFrom, run_bind, findSite_run, Work.extractFrom, Work.run, Lookup.answer, Lookup.after,
    Lookup.outcome]
  rcases (Cache.template source path).run.run cache with ⟨answer, after⟩
  simp only [Prod.map_apply, id_eq]
  cases siteOf path query answer with
  | error fault => rfl
  | ok site => exact extractSpan_run_eq source config path after _

theorem extract_run_eq (query : CallSite.Query) :
    (extract source config path query).run.run cache =
      (Work.extract config path query).run source cache := by
  rw [extract, run_bind, findSite_run, Work.extract, Work.run, Lookup.answer, Lookup.after,
    Lookup.outcome]
  rcases (Cache.template source path).run.run cache with ⟨answer, after⟩
  simp only [Prod.map_apply, id_eq]
  cases siteOf path query answer with
  | error fault => rfl
  | ok site =>
      simp only [run_bind, extractSpan_run, Work.run_map]
      show _ = Prod.map _ id ((readText source path).map _, after.countRead)
      cases readText source path <;> rfl

end

/-! ## The index -/

namespace Work

variable {α : Type} (config : Config)

/-- The work of gathering the sections of several templates. -/
def gather : List Path → (Index → Work α) → Work α
  | [], next => next {}
  | file :: files, next =>
    .template file fun answer =>
      gather files fun rest => next (rest.withTemplate config.method file answer)

/-- The work of loading several sections. -/
def load : List Section → (Option ExtractError × List Section → Work α) → Work α
  | [], next => next (none, [])
  | item :: items, next =>
    .text item.file fun
    | .error fault => next (some fault, item :: items)
    | .ok contents =>
      let loaded := { item with source := some (item.span.cut config.indentWidth contents) }
      load items fun (fault, rest) => next (fault, loaded :: rest)

end Work

namespace Work

variable {α : Type} (source : Source) (config : Config) (cache : Cache)

/-! The lookups of each piece of work. -/

theorem lookups_extractFrom (path : Path) (startLine : Nat) (query : CallSite.Query) :
    (extractFrom config path startLine query).lookups source cache = [⟨source, path, cache⟩] := by
  simp only [extractFrom, lookups]
  split <;> rfl

theorem lookups_extract (path : Path) (query : CallSite.Query) :
    (extract config path query).lookups source cache = [⟨source, path, cache⟩] := by
  simp only [extract, lookups]
  split <;> rfl

theorem lookups_load (items : List Section)
    {next : Option ExtractError × List Section → Work α}
    (quiet : ∀ result cache, (next result).lookups source cache = []) :
    (load config items next).lookups source cache = [] := by
  induction items generalizing next cache with
  | nil => exact quiet _ _
  | cons item items ih =>
      rw [load, lookups]
      cases readText source item.file with
      | error fault => exact quiet _ _
      | ok contents => exact ih _ fun _ _ => quiet _ _

theorem paths_lookups_gather (files : List Path) {next : Index → Work α}
    (quiet : ∀ index cache, (next index).lookups source cache = []) :
    ((gather config files next).lookups source cache).map Lookup.path = files := by
  induction files generalizing next cache with
  | nil => rw [gather, quiet]; rfl
  | cons file files ih =>
      rw [gather, lookups, List.map_cons, ih _ fun _ _ => quiet _ _]

end Work

theorem gather_run_eq {α : Type} (source : Source) (config : Config) (files : List Path)
    (next : Index → Work α) (cache : Cache) :
    (Work.gather config files next).run source cache =
      (next ((Index.gather source config files).run cache).1).run source
        ((Index.gather source config files).run cache).2 := by
  induction files generalizing next cache with
  | nil => rfl
  | cons file files ih =>
      rw [Work.gather, Work.run, ih, gather_cons_run]
      rfl

theorem loadSections_run_eq {α : Type} (source : Source) (config : Config) (items : List Section)
    (next : Option ExtractError × List Section → Work α) (cache : Cache) :
    (Work.load config items next).run source cache =
      (next ((Index.loadSections source config items).run cache).1).run source
        ((Index.loadSections source config items).run cache).2 := by
  induction items generalizing next cache with
  | nil => rfl
  | cons item items ih =>
      rw [Work.load, Work.run, Index.loadSections, StateT.run_bind, load_run]
      cases readText source item.file with
      | error fault => rfl
      | ok contents =>
        rw [ih]
        rfl

/-! ## Requests -/

/-- Whether a request leaves the stored files as they are. -/
def Request.keepsFiles : Request → Bool
  | .put _ _ => false
  | .remove _ => false
  | _ => true

namespace Session

/-- What a session makes of the result of its work with the cache: the reply, and the session that
stands afterwards. -/
abbrev Finish := Session → Except ExtractError Reply × Session

/-- A finish that answers with a result and changes nothing. -/
def answering {α : Type} (reply : α → Reply) (result : Except ExtractError α) : Finish :=
  fun after => (result.map reply, after)

/-- What a request asks of the cache, and what the session makes of the result. -/
def plan (session : Session) : Request → Work Finish
  | .parse path =>
    .template path fun answer => .done fun after =>
      match answer with
      | .error fault => (.error fault, after)
      | .ok root =>
        let (number, numbered) := after.number path
        (.ok (.tree number root), numbered)
  | .extractFrom path startLine query =>
    (Work.extractFrom session.config path startLine query).map (answering .text)
  | .extract path query => (Work.extract session.config path query).map (answering .extraction)
  | .extractSection path argument =>
    (Work.extract session.config path ⟨session.config.method, argument⟩).map
      (answering .extraction)
  | .extractSpan path span => (Work.extractSpan session.config path span).map (answering .text)
  | .buildIndex root =>
    Work.gather session.config
      (Specimen.findTemplates session.storage.source session.config root) fun gathered =>
        let index := { gathered with sections := gathered.sections.mergeSort Section.precedes }
        .done fun after => (.ok (.index index), { after with index })
  | .loadIndex =>
    Work.load session.config session.index.sections fun (fault, sections) =>
      let index := { session.index with sections }
      .done fun after =>
        match fault with
        | some fault => (.error fault, { after with index })
        | none => (.ok (.index index), { after with index })
  -- the others ask nothing of the cache
  | request => .done fun after => after.step request

/-- Does the work of a plan with the cache of the session, and finishes. -/
def carryOut (session : Session) (work : Work Finish) : Except ExtractError Reply × Session :=
  let (finish, cache) := work.run session.storage.source session.cache
  finish { session with cache }

theorem attempt_eq {α : Type} {session : Session} {task : Caching α} {work : Work _}
    (same : task.run.run session.cache = work.run session.storage.source session.cache)
    (reply : α → Reply) :
    session.attempt task reply = session.carryOut (work.map (answering reply)) := by
  rw [carryOut, Work.run_map, attempt, withCache, same]
  rfl

/-- To answer a request is to carry out its plan. -/
theorem step_eq_carryOut (session : Session) (request : Request) :
    session.step request = session.carryOut (session.plan request) := by
  cases request with
  | parse path =>
      rw [step, carryOut, plan, withCache]
      simp only [Work.run, Lookup.answer, Lookup.after, Lookup.outcome]
      rcases (Cache.template session.storage.source path).run.run session.cache with ⟨_ | _, _⟩ <;>
        rfl
  | extractFrom path startLine query => exact attempt_eq (extractFrom_run_eq ..) _
  | extract path query => exact attempt_eq (extract_run_eq ..) _
  | extractSection path argument => exact attempt_eq (extract_run_eq ..) _
  | extractSpan path span => exact attempt_eq (extractSpan_run_eq ..) _
  | buildIndex root =>
      rw [step, carryOut, plan, withCache, gather_run_eq]
      rfl
  | loadIndex =>
      rw [step, carryOut, plan, withCache, loadSections_run_eq, Index.load, StateT.run_bind]
      rcases (Index.loadSections session.storage.source session.config session.index.sections).run
        session.cache with ⟨⟨_ | _, _⟩, _⟩ <;> rfl
  | _ => rfl

/-! ## What a request asks for -/

/-- The templates whose trees a request asks for. -/
def asked (session : Session) : Request → List Path
  | .parse path => [path]
  | .extractFrom path _ _ => [path]
  | .extract path _ => [path]
  | .extractSection path _ => [path]
  | .buildIndex root => Specimen.findTemplates session.storage.source session.config root
  | _ => []

/-- A request looks up what it asks for, in this order, and nothing else. -/
theorem lookups_plan (session : Session) (request : Request) :
    ((session.plan request).lookups session.storage.source session.cache).map Lookup.path =
      session.asked request := by
  cases request with
  | extractFrom path startLine query =>
      rw [plan, Work.lookups_map, Work.lookups_extractFrom]
      rfl
  | extract path query =>
      rw [plan, Work.lookups_map, Work.lookups_extract]
      rfl
  | extractSection path argument =>
      rw [plan, Work.lookups_map, Work.lookups_extract]
      rfl
  | buildIndex root =>
      rw [plan, Work.paths_lookups_gather]
      · rfl
      · exact fun _ _ => rfl
  | loadIndex =>
      rw [plan, Work.lookups_load]
      · rfl
      · exact fun _ _ => rfl
  | _ => rfl

/-! ## What a request changes -/

/-- A path gets its place in the list of the answered paths, and keeps it. -/
theorem number_spec (session : Session) (path : Path) :
    session.answered <+: (session.number path).2.answered ∧
      path.components ∈ (session.number path).2.answered ∧
      (session.number path).1 = (session.number path).2.answered.idxOf path.components := by
  by_cases member : path.components ∈ session.answered
  · simp [number, member]
  · simp [number, member, List.idxOf_append]

/-- What a request can change, besides the settings and the index. -/
structure Changes (session : Session) (request : Request) (after : Session) : Prop where
  /-- The cache is the one that the work leaves behind. -/
  cache : after.cache = ((session.plan request).run session.storage.source session.cache).2
  storage : request.keepsFiles = true → after.storage = session.storage
  answered : session.answered <+: after.answered

theorem number_cache (session : Session) (path : Path) :
    (session.number path).2.cache = session.cache := by
  simp only [number]
  split <;> rfl

theorem number_storage (session : Session) (path : Path) :
    (session.number path).2.storage = session.storage := by
  simp only [number]
  split <;> rfl

/-- Most requests change the cache and the index only. -/
theorem changes_of_eq {session after : Session} {request : Request} (index : Index)
    (same : after = { session with
      cache := ((session.plan request).run session.storage.source session.cache).2, index }) :
    session.Changes request after := by
  subst same
  exact ⟨rfl, fun _ => rfl, List.prefix_refl _⟩

/-- A request for a tree is one lookup; only if it succeeds does the path get its number. -/
theorem step_parse (session : Session) (path : Path) :
    let lookup : Lookup := ⟨session.storage.source, path, session.cache⟩
    let after : Session := { session with cache := lookup.after }
    session.step (.parse path) =
      match lookup.answer with
      | .error fault => (.error fault, after)
      | .ok root => (.ok (.tree (after.number path).1 root), (after.number path).2) := by
  rw [step_eq_carryOut]
  simp only [carryOut, plan, Work.run]

/-- A request to load the index leaves it as far as it was loaded, and answers with it or with the
fault that ended the loading. -/
theorem step_loadIndex (session : Session) :
    let outcome := (Index.loadSections session.storage.source session.config
      session.index.sections).run session.cache
    let index : Index := { session.index with sections := outcome.1.2 }
    session.step .loadIndex =
      (match outcome.1.1 with
        | some fault => .error fault
        | none => .ok (.index index),
        { session with cache := outcome.2, index }) := by
  rw [step, withCache, Index.load, StateT.run_bind]
  rcases (Index.loadSections session.storage.source session.config session.index.sections).run
    session.cache with ⟨⟨_ | _, _⟩, _⟩ <;> rfl

theorem step_parse_of_answer {session : Session} {path : Path} {number : Nat} {root : Node}
    (answer : (Lookup.mk session.storage.source path session.cache).answer = .ok root)
    (place : (session.number path).1 = number) :
    (session.step (.parse path)).1 = .ok (.tree number root) := by
  rw [step_parse, ← place]
  simp only [answer, Session.number]
  split <;> rfl

theorem step_changes (session : Session) (request : Request) :
    session.Changes request (session.step request).2 := by
  cases request with
  | parse path =>
      let lookup : Lookup := ⟨session.storage.source, path, session.cache⟩
      let after : Session := { session with cache := lookup.after }
      rw [step_parse]
      split
      · exact changes_of_eq session.index rfl
      · exact ⟨number_cache after path, fun _ => number_storage after path,
          (number_spec after path).1⟩
  | buildIndex root =>
      refine changes_of_eq (session.step (.buildIndex root)).2.index ?_
      rw [step_eq_carryOut, carryOut, plan, gather_run_eq]
      rfl
  | loadIndex =>
      refine changes_of_eq (session.step .loadIndex).2.index ?_
      rw [step_loadIndex, plan, loadSections_run_eq]
      rfl
  | put path contents => exact ⟨rfl, fun keeps => Bool.noConfusion keeps, List.prefix_refl _⟩
  | remove path => exact ⟨rfl, fun keeps => Bool.noConfusion keeps, List.prefix_refl _⟩
  | configure config => exact ⟨rfl, fun _ => rfl, List.prefix_refl _⟩
  | findTemplates root | findSection argument | indexText =>
      exact ⟨rfl, fun _ => rfl, List.prefix_refl _⟩
  | extractFrom path startLine query | extract path query | extractSection path argument
  | extractSpan path span =>
      refine changes_of_eq session.index ?_
      rw [step_eq_carryOut, carryOut, plan, Work.run_map]
      rfl

/-! ## Runs -/

/-- The session after several requests. -/
def run (session : Session) (requests : List Request) : Session :=
  requests.foldl (fun session request => (session.step request).2) session

/-- The lookups that several requests make, one after the other. -/
def history (session : Session) : List Request → List Lookup
  | [] => []
  | request :: requests =>
    (session.plan request).lookups session.storage.source session.cache ++
      (session.step request).2.history requests

theorem run_cons (session : Session) (request : Request) (requests : List Request) :
    session.run (request :: requests) = (session.step request).2.run requests := rfl

theorem run_append (session : Session) (first second : List Request) :
    session.run (first ++ second) = (session.run first).run second :=
  List.foldl_append

end Session

end Specimen
