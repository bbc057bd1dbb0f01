/-
# Specimen.Proofs.Session.Reads — what a session has read, and what for.

A session reads a file for one of two reasons: to parse it, if its tree is not kept yet, or to cut
text out of it.  A parse either fails or brings in a template, which is kept for good, so that every
read is accounted for: by a template, by a lookup that failed, or by a cut.

`Accounted` says this of a change of the cache.  It holds of one lookup and of one cut, it adds up
along a piece of work, and from there along a run of requests.  `slices` says which files a request
cuts text out of, going by what the request is and by what it finds.
-/
import Specimen.Proofs.Session.Lookups

namespace Specimen

open Template

/-! ## Lookups that read -/

namespace Lookup

/-- Whether the lookup gives no tree. -/
def fails (lookup : Lookup) : Bool := !lookup.succeeds

/-- Whether the lookup has read its file and found a tree in it. -/
def parses (lookup : Lookup) : Bool :=
  lookup.succeeds && decide (lookup.cache.reads < lookup.after.reads)

end Lookup

/-- The change from one cache to another is accounted for by some lookups and by the files that text
was cut out of. -/
structure Accounted (before after : Cache) (seen : List Lookup) (files : List Path) : Prop where
  /-- Every read was a parse, a lookup that failed, or a cut. -/
  reads : after.reads =
    before.reads + seen.countP Lookup.parses + seen.countP Lookup.fails + files.length
  /-- Every parse has brought in its template, and nothing else has. -/
  templates : after.templates.map Prod.fst =
    before.templates.map Prod.fst ++ (seen.filter Lookup.parses).map (·.path.components)

namespace Accounted

theorem refl (cache : Cache) : Accounted cache cache [] [] :=
  ⟨rfl, (List.append_nil _).symm⟩

theorem trans {first middle last : Cache} {seen seen' : List Lookup} {files files' : List Path}
    (earlier : Accounted first middle seen files) (later : Accounted middle last seen' files') :
    Accounted first last (seen ++ seen') (files ++ files') := by
  constructor
  · rw [later.reads, earlier.reads]
    simp only [List.countP_append, List.length_append]
    omega
  · rw [later.templates, earlier.templates, List.filter_append, List.map_append, List.append_assoc]

/-- To cut text out of a file is to read it once. -/
theorem countRead (cache : Cache) (file : Path) : Accounted cache cache.countRead [] [file] :=
  ⟨rfl, (List.append_nil _).symm⟩

/-- A lookup accounts for what it does. -/
theorem lookup (lookup : Lookup) : Accounted lookup.cache lookup.after [lookup] [] := by
  cases lookup.ends with
  | kept found outcome =>
      have succeeds : lookup.succeeds = true := by rw [Lookup.succeeds, Lookup.answer, outcome]; rfl
      have same : lookup.after = lookup.cache := by rw [Lookup.after, outcome]
      constructor <;> simp [Lookup.parses, Lookup.fails, succeeds, same]
  | @parsed root fresh parsed outcome =>
      have succeeds : lookup.succeeds = true := by rw [Lookup.succeeds, Lookup.answer, outcome]; rfl
      have counted : lookup.after.reads = lookup.cache.reads + 1 := by
        rw [Lookup.after, outcome]
        rfl
      have grown : lookup.after.templates =
          lookup.cache.templates ++ [(lookup.path.components, root)] := by
        rw [Lookup.after, outcome]
        rfl
      have parses : lookup.parses = true := by simp [Lookup.parses, succeeds, counted]
      constructor <;> simp [Lookup.fails, parses, succeeds, counted, grown]
  | failed fresh failed outcome =>
      have fails : lookup.succeeds = false := by rw [Lookup.succeeds, Lookup.answer, outcome]; rfl
      have counted : lookup.after = lookup.cache.countRead := by rw [Lookup.after, outcome]
      constructor <;> simp [Lookup.parses, Lookup.fails, fails, counted, Cache.countRead]

end Accounted

/-! ## Work -/

namespace Work

variable {α β : Type}

/-- The files that the work cuts text out of, one after the other. -/
def texts (source : Source) : Work α → Cache → List Path
  | done _, _ => []
  | template path next, cache =>
    let lookup : Lookup := ⟨source, path, cache⟩
    (next lookup.answer).texts source lookup.after
  | text path next, cache => path :: (next (readText source path)).texts source cache.countRead

/-- Work accounts for what it does, question by question. -/
theorem accounted (work : Work α) (source : Source) (cache : Cache) :
    Accounted cache (work.run source cache).2 (work.lookups source cache)
      (work.texts source cache) := by
  induction work generalizing cache with
  | done result => exact .refl cache
  | template path next ih => exact (Accounted.lookup ⟨source, path, cache⟩).trans (ih _ _)
  | text path next ih => exact (Accounted.countRead cache path).trans (ih _ _)

/-! The cuts of each piece of work. -/

theorem texts_map (f : α → β) (work : Work α) (source : Source) (cache : Cache) :
    (work.map f).texts source cache = work.texts source cache := by
  induction work generalizing cache with
  | done result => rfl
  | template path next ih => exact ih _ _
  | text path next ih => exact congrArg (path :: ·) (ih _ _)

end Work

/-- The call that a query asks for in a template, if a lookup gives its tree and the call is in
it. -/
def Lookup.located? (lookup : Lookup) (query : CallSite.Query) : Option CallSite :=
  lookup.answer.toOption.bind fun root => CallSite.locate root query

theorem Lookup.toOption_siteOf (lookup : Lookup) (path : Path) (query : CallSite.Query) :
    (siteOf path query lookup.answer).toOption = lookup.located? query := by
  rw [located?]
  cases lookup.answer with
  | error fault => rfl
  | ok root =>
      show _ = CallSite.locate root query
      rw [siteOf]
      cases CallSite.locate root query <;> rfl

/-- A call that is not located is a fault of the extraction. -/
theorem Lookup.siteOf_of_unlocated {lookup : Lookup} {query : CallSite.Query}
    (unlocated : lookup.located? query = none) (path : Path) :
    ∃ fault, siteOf path query lookup.answer = .error fault := by
  rw [← lookup.toOption_siteOf path] at unlocated
  cases site : siteOf path query lookup.answer with
  | error fault => exact ⟨fault, rfl⟩
  | ok found =>
      rw [site] at unlocated
      contradiction

namespace Work

variable {α : Type} (source : Source) (config : Config) (cache : Cache)

theorem texts_extractFrom (path : Path) (startLine : Nat) (query : CallSite.Query) :
    (extractFrom config path startLine query).texts source cache =
      ((Lookup.mk source path cache).located? query).toList.map fun _ => path := by
  rw [extractFrom, texts, ← Lookup.toOption_siteOf _ path]
  cases siteOf path query (Lookup.mk source path cache).answer <;> rfl

theorem texts_extract (path : Path) (query : CallSite.Query) :
    (extract config path query).texts source cache =
      ((Lookup.mk source path cache).located? query).toList.map fun _ => path := by
  rw [extract, texts, ← Lookup.toOption_siteOf _ path]
  cases siteOf path query (Lookup.mk source path cache).answer <;> rfl

/-- Extractions that find no call leave what the lookup leaves. -/
theorem run_extractFrom_of_unlocated {path : Path} {query : CallSite.Query}
    (unlocated : (Lookup.mk source path cache).located? query = none) (startLine : Nat) :
    ((extractFrom config path startLine query).run source cache).2 =
      (Lookup.mk source path cache).after := by
  obtain ⟨fault, missing⟩ := Lookup.siteOf_of_unlocated unlocated path
  rw [extractFrom, run, missing]
  rfl

theorem run_extract_of_unlocated {path : Path} {query : CallSite.Query}
    (unlocated : (Lookup.mk source path cache).located? query = none) :
    ((extract config path query).run source cache).2 = (Lookup.mk source path cache).after := by
  obtain ⟨fault, missing⟩ := Lookup.siteOf_of_unlocated unlocated path
  rw [extract, run, missing]
  rfl

theorem texts_gather (files : List Path) {next : Index → Work α}
    (quiet : ∀ index cache, (next index).texts source cache = []) :
    (gather config files next).texts source cache = [] := by
  induction files generalizing next cache with
  | nil => exact quiet _ _
  | cons file files ih => exact ih _ fun _ _ => quiet _ _

theorem texts_load (items : List Section) {next : Option ExtractError × List Section → Work α}
    (quiet : ∀ result cache, (next result).texts source cache = []) :
    (load config items next).texts source cache =
      (Index.attempted source items).map Section.file := by
  induction items generalizing next cache with
  | nil => exact quiet _ _
  | cons item items ih =>
      rw [load, texts, Index.attempted, readText]
      cases source.read item.file with
      | error fault => exact congrArg (item.file :: ·) (quiet _ _)
      | ok contents => exact congrArg (item.file :: ·) (ih _ fun _ _ => quiet _ _)

end Work

/-! ## Indices -/

/-- The templates that an index passes over are the lookups that fail. -/
theorem skipped_gather_run {α : Type} (source : Source) (config : Config) (files : List Path)
    {next : Index → Work α} (quiet : ∀ index cache, (next index).lookups source cache = [])
    (cache : Cache) :
    ((Index.gather source config files).run cache).1.skipped =
      ((Work.gather config files next).lookups source cache).countP Lookup.fails := by
  induction files generalizing next cache with
  | nil =>
      rw [Work.gather, quiet]
      rfl
  | cons file files ih =>
      let lookup : Lookup := ⟨source, file, cache⟩
      -- the other templates are gathered with the cache that the lookup leaves
      have others := @ih (fun rest => next (rest.withTemplate config.method file lookup.answer))
        (fun _ _ => quiet _ _) lookup.after
      have more : ∀ index : Index, (index.withTemplate config.method file lookup.answer).skipped =
          index.skipped + lookup.fails.toNat := by
        intro index
        rw [Lookup.fails, Lookup.succeeds]
        cases lookup.answer <;> rfl
      rw [gather_cons_run, Prod.map_fst, more, others, Work.gather, Work.lookups, List.countP_cons]
      cases lookup.fails <;> rfl

/-! ## Requests -/

/-- The template and the call that an extraction asks for. -/
def Request.wanted? (config : Config) : Request → Option (Path × CallSite.Query)
  | .extractFrom path _ query => some (path, query)
  | .extract path query => some (path, query)
  | .extractSection path argument => some (path, ⟨config.method, argument⟩)
  | _ => none

namespace Session

/-- The lookup that a session would make for a template. -/
def lookup (session : Session) (path : Path) : Lookup :=
  ⟨session.storage.source, path, session.cache⟩

/-- The files that a request cuts text out of: the template of a call that has been found, a file
that is cut directly, and the files of the sections that loading gets to. -/
def slices (session : Session) : Request → List Path
  | .extractSpan path _ => [path]
  | .loadIndex => (Index.attempted session.storage.source session.index.sections).map Section.file
  | request =>
    match request.wanted? session.config with
    | some (path, query) => ((session.lookup path).located? query).toList.map fun _ => path
    | none => []

/-- The cuts of a plan are those of its request. -/
theorem texts_plan (session : Session) (request : Request) :
    (session.plan request).texts session.storage.source session.cache = session.slices request := by
  cases request with
  | extractFrom path startLine query =>
      rw [plan, Work.texts_map]
      exact Work.texts_extractFrom ..
  | extract path query =>
      rw [plan, Work.texts_map]
      exact Work.texts_extract ..
  | extractSection path argument =>
      rw [plan, Work.texts_map]
      exact Work.texts_extract ..
  | extractSpan path span =>
      rw [plan, Work.texts_map]
      rfl
  | buildIndex root => exact Work.texts_gather _ _ _ _ fun _ _ => rfl
  | loadIndex => exact Work.texts_load _ _ _ _ fun _ _ => rfl
  | _ => rfl

/-- The files that several requests cut text out of, one after the other. -/
def sliced (session : Session) : List Request → List Path
  | [] => []
  | request :: requests => session.slices request ++ (session.step request).2.sliced requests

/-- A request accounts for what it does to the cache. -/
theorem accounted_step (session : Session) (request : Request) :
    Accounted session.cache (session.step request).2.cache
      ((session.plan request).lookups session.storage.source session.cache)
      (session.slices request) := by
  rw [(session.step_changes request).cache, ← texts_plan]
  exact (session.plan request).accounted _ _

/-- So does a run of requests. -/
theorem accounted_run (session : Session) (requests : List Request) :
    Accounted session.cache (session.run requests).cache (session.history requests)
      (session.sliced requests) := by
  induction requests generalizing session with
  | nil => exact .refl session.cache
  | cons request requests ih => exact (session.accounted_step request).trans (ih _)

/-- What a request reads, in terms of what it answers. -/
structure ReadsFor (session : Session) (request : Request) : Prop where
  /-- The lookups of a request are for the templates that it asks for, and no others. -/
  lookups : ((session.plan request).lookups session.storage.source session.cache).map Lookup.path =
    session.asked request
  /-- An extraction that does not find its call does what the lookup of its template does, and
  nothing beyond that. -/
  missed : ∀ path query, request.wanted? session.config = some (path, query) →
    (session.lookup path).located? query = none →
      (session.step request).2.cache = (session.lookup path).after
  /-- A template that an index passes over is a lookup that fails. -/
  skipped : ∀ root index, request = .buildIndex root →
    (session.step request).1 = .ok (.index index) →
      ((session.plan request).lookups session.storage.source session.cache).countP Lookup.fails =
        index.skipped
  /-- Loading that succeeds reads a file for each section. -/
  loaded : ∀ reply, request = .loadIndex → (session.step request).1 = .ok reply →
    session.slices request = session.index.sections.map Section.file
  /-- Loading that fails reads the files of the sections up to the one that it fails at, and the
  file of that one. -/
  stopped : ∀ fault, request = .loadIndex → (session.step request).1 = .error fault →
    ∃ before item after reason, session.index.sections = before ++ item :: after ∧
      (∀ earlier ∈ before, ∃ text, session.storage.source.read earlier.file = .ok text) ∧
      session.storage.source.read item.file = .error reason ∧ fault = .read item.file reason ∧
      session.slices request = (before ++ [item]).map Section.file

theorem cache_of_unlocated {session : Session} {request : Request} {path : Path}
    {query : CallSite.Query} (wanted : request.wanted? session.config = some (path, query))
    (unlocated : (session.lookup path).located? query = none) :
    (session.step request).2.cache = (session.lookup path).after := by
  rw [(session.step_changes request).cache]
  cases request with
  | extractFrom named startLine query =>
      cases wanted
      rw [plan, Work.run_map]
      exact Work.run_extractFrom_of_unlocated _ _ _ unlocated startLine
  | extract named query =>
      cases wanted
      rw [plan, Work.run_map]
      exact Work.run_extract_of_unlocated _ _ _ unlocated
  | extractSection named argument =>
      cases wanted
      rw [plan, Work.run_map]
      exact Work.run_extract_of_unlocated _ _ _ unlocated
  | _ => cases wanted

theorem readsFor (session : Session) (request : Request) : session.ReadsFor request := by
  refine ⟨session.lookups_plan request, fun _ _ => cache_of_unlocated, ?skipped, ?loaded, ?stopped⟩
  case skipped =>
    rintro root index rfl reply
    rw [step_eq_carryOut, carryOut, plan, gather_run_eq] at reply
    obtain rfl := Reply.index.inj (Except.ok.inj reply)
    exact (skipped_gather_run _ _ _ (fun _ _ => rfl) _).symm
  case loaded =>
    rintro reply rfl ok
    have ends := Index.loadEnds session.storage.source session.config session.index.sections
      session.cache
    rw [step_loadIndex] at ok
    generalize ((Index.loadSections session.storage.source session.config
      session.index.sections).run session.cache).1 = result at ends ok
    cases ends with
    | all readable same => exact congrArg (List.map Section.file) same
    | stopped _ _ _ _ => cases ok
  case stopped =>
    rintro fault rfl error
    have ends := Index.loadEnds session.storage.source session.config session.index.sections
      session.cache
    rw [step_loadIndex] at error
    generalize ((Index.loadSections session.storage.source session.config
      session.index.sections).run session.cache).1 = result at ends error
    cases ends with
    | all _ _ => cases error
    | stopped whole readable unread same =>
        cases error
        exact ⟨_, _, _, _, whole, readable, unread, rfl, congrArg (List.map Section.file) same⟩

/-- After every request of every session, the reads so far are as many as the templates that are
kept, the lookups that have failed, and the cuts.  A cut is made for each extraction whose call has
been located, for each span, and for each section that loading gets to; what else a request reads is
said by `ReadsFor`.  The templates are those of the lookups that have parsed a file, one for one, so
no path is ever parsed with success a second time. -/
theorem reads_accounted (storage : Storage) (config : Config) (requests : List Request) :
    let start : Session := { storage, config }
    let session := start.run requests
    session.cache.reads = session.cache.templates.length +
        (start.history requests).countP Lookup.fails + (start.sliced requests).length ∧
      session.cache.templates.map Prod.fst =
        ((start.history requests).filter Lookup.parses).map (·.path.components) ∧
      (((start.history requests).filter Lookup.parses).map (·.path.components)).Nodup ∧
      ∀ request, session.ReadsFor request := by
  intro start session
  obtain ⟨reads, templates⟩ := start.accounted_run requests
  obtain ⟨-, records⟩ := start.records_run records_empty requests
  have keys : session.cache.templates.map Prod.fst =
      ((start.history requests).filter Lookup.parses).map (·.path.components) := templates
  have parses : (start.history requests).countP Lookup.parses = session.cache.templates.length := by
    rw [List.countP_eq_length_filter, ← List.length_map, ← keys, List.length_map]
  refine ⟨?_, keys, keys ▸ records.distinct, session.readsFor⟩
  have fresh : start.cache.reads = 0 := rfl
  rw [reads, fresh, parses, Nat.zero_add]

/-- A template with a section, and another one that cannot be parsed. -/
def mixedDisk : Disk :=
  (Disk.empty.put ⟨"d/a.slim"⟩ "- kss_block '1'\n  p\n".toUTF8).put ⟨"e/b.slim"⟩ "-\n".toUTF8

/-- One template fails twice, at its own request and in an index; the other one is parsed once, for
the section that is found.  The text of that section is read when it is extracted and once more when
its index is loaded, where the file is gone by then; the third text is a span of the template that
fails.  A section that is not found costs nothing. -/
theorem reads_accounted_mixed :
    let start : Session := { storage := .onDisk mixedDisk }
    let before : List Request := [.parse ⟨"e/b.slim"⟩, .extract ⟨"d/a.slim"⟩ ⟨"kss_block", "1"⟩]
    let missing : Request := .extractSection ⟨"d/a.slim"⟩ "9"
    let after : List Request := [.extractSpan ⟨"e/b.slim"⟩ ⟨0, 1⟩, .buildIndex ⟨"e"⟩,
      .buildIndex ⟨"d"⟩, .remove ⟨"d/a.slim"⟩, .loadIndex]
    let session := start.run (before ++ missing :: after)
    session.cache.reads = 1 + 2 + 3 ∧
      start.sliced (before ++ missing :: after) = [⟨"d/a.slim"⟩, ⟨"e/b.slim"⟩, ⟨"d/a.slim"⟩] ∧
      ((start.run before).step missing).2.cache.reads = (start.run before).cache.reads := by
  intro start before missing after session
  obtain ⟨reads, -, -, -⟩ := reads_accounted (.onDisk mixedDisk) {} (before ++ missing :: after)
  obtain ⟨-, -, -, readsFor⟩ := reads_accounted (.onDisk mixedDisk) {} before
  have kept : session.cache.templates.length = 1 := by decide +kernel
  have failed : (start.history (before ++ missing :: after)).countP Lookup.fails = 2 := by
    decide +kernel
  have cut : start.sliced (before ++ missing :: after) =
      [⟨"d/a.slim"⟩, ⟨"e/b.slim"⟩, ⟨"d/a.slim"⟩] := by
    decide +kernel
  have missed := (readsFor missing).missed ⟨"d/a.slim"⟩ ⟨"kss_block", "9"⟩ rfl (by decide +kernel)
  refine ⟨?_, cut, ?_⟩
  · rw [reads, kept, failed, cut]
    rfl
  · rw [missed]
    decide +kernel

end Session

end Specimen
