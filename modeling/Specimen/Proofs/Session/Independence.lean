/-
# Specimen.Proofs.Session.Independence — answers that do not depend on what was asked before.

As long as no file is stored or removed, a cache can only keep what a fresh cache would find again.
So work with it comes to the same result as work without any cache, and a request is answered as if
it were the first.

The cache knows a template by the components of its path, but a file is read by the path as it was
given.  The two part where a path ends in a slash or a dot, or where it is too long to be followed:
`long_path_remembered` is a path that is answered only because a shorter one came before.
`history_independent` is about the other paths.
-/
import Specimen.Proofs.Disk.Listing
import Specimen.Proofs.Disk.Spelling
import Specimen.Proofs.Session.Plan

namespace Specimen

open Template

/-! ## Files by components -/

namespace Storage

/-- The text that is stored for components. -/
def textAt : Storage → List Component → Except ReadError String
  | inMemory held _, key =>
    match held.lookup key with
    | some contents => decodeText contents
    | none => .error .noSuchTemplate
  | onDisk disk, key => disk.readAt key

/-- Whether a path leads to the text of its components. -/
def Finds (storage : Storage) (path : Path) : Prop :=
  storage.source.read path = storage.textAt path.components

/-- Whether a path can be followed to its end.  In memory every path can; on disk, a path that is
plain and not too long. -/
def follows : Storage → Path → Bool
  | inMemory _ _, _ => true
  | onDisk _, path => path.isPlain && Disk.fits path

variable {storage : Storage} {path : Path}

theorem finds_of_follows (follows : storage.follows path = true) : storage.Finds path := by
  cases storage with
  | inMemory held disk => rfl
  | onDisk disk =>
      obtain ⟨plain, fits⟩ := Bool.and_eq_true_iff.mp follows
      exact Disk.read_eq_readAt (Disk.locate_eq_walk fits (.inl plain))

/-- What can be read is the text of its components. -/
theorem finds_of_read {text : String} (read : storage.source.read path = .ok text) :
    storage.Finds path := by
  cases storage with
  | inMemory held disk => rfl
  | onDisk disk =>
      exact Disk.read_eq_readAt_of_ok read

/-- The files below a path are found where they are listed. -/
theorem finds_of_mem_filesBelow {root : Path} (member : path ∈ storage.source.filesBelow root) :
    storage.Finds path := by
  cases storage with
  | inMemory held disk => rfl
  | onDisk disk => exact Disk.read_eq_readAt (Disk.locate_of_mem_filesBelow member)

end Storage

/-! ## Caches that keep what the files hold -/

/-- Every tree that is kept for some components is the tree of the text that is stored for them. -/
def Storage.Keeps (storage : Storage) (cache : Cache) : Prop :=
  ∀ path root, cache.find? path = some root →
    ∃ text, storage.textAt path.components = .ok text ∧ parse text = .ok root

namespace Storage.Keeps

variable {storage : Storage} {cache : Cache} {path : Path}

theorem empty (storage : Storage) : storage.Keeps {} := fun _ _ found => by cases found

/-- A lookup keeps a tree only if the file has it. -/
theorem after (keeps : storage.Keeps cache) (path : Path) :
    storage.Keeps (Lookup.mk storage.source path cache).after := by
  intro other root found
  cases (Lookup.mk storage.source path cache).ends with
  | kept _ outcome | failed _ _ outcome =>
      rw [Lookup.after, outcome] at found
      exact keeps other root found
  | parsed _ parsed outcome =>
      rw [Lookup.after, outcome, Cache.find?_keep, Option.or_eq_some_iff] at found
      rcases found with old | ⟨-, new⟩
      · exact keeps other root old
      · obtain ⟨same, kept⟩ := Option.ite_none_right_eq_some.mp new
        obtain rfl := Option.some.inj kept
        obtain ⟨text, read, tree⟩ := parseFile_eq_ok_iff.mp parsed
        refine ⟨text, ?_, tree⟩
        rw [same, ← finds_of_read read]
        exact read

/-- A lookup gives what is in the file. -/
theorem answer_eq (keeps : storage.Keeps cache) (finds : storage.Finds path) :
    (Lookup.mk storage.source path cache).answer = parseFile storage.source path := by
  cases (Lookup.mk storage.source path cache).ends with
  | kept found outcome =>
      obtain ⟨text, stored, tree⟩ := keeps path _ found
      rw [Lookup.answer, outcome]
      exact (parseFile_eq_ok_iff.mpr ⟨text, finds.trans stored, tree⟩).symm
  | parsed _ parsed outcome => rw [Lookup.answer, outcome, parsed]
  | failed _ failed outcome => rw [Lookup.answer, outcome, failed]

/-- Work leaves a cache that keeps what the files hold. -/
theorem work {α : Type} (keeps : storage.Keeps cache) (work : Work α) :
    storage.Keeps (work.run storage.source cache).2 := by
  induction work generalizing cache with
  | done result => exact keeps
  | template path next ih => exact ih _ (keeps.after path)
  | text path next ih => exact ih _ keeps

/-- Work comes to the result that it comes to without a cache, if all templates that it asks for are
found by their components. -/
theorem run_eq {α : Type} (keeps : storage.Keeps cache) {work : Work α}
    (finds : ∀ lookup ∈ work.lookups storage.source cache, storage.Finds lookup.path) :
    (work.run storage.source cache).1 = work.runUncached storage.source := by
  induction work generalizing cache with
  | done result => rfl
  | template path next ih =>
      have here := keeps.answer_eq (finds _ List.mem_cons_self)
      have rest := ih _ (keeps.after path) fun lookup later =>
        finds lookup (List.mem_cons_of_mem _ later)
      rw [here] at rest
      rw [Work.run, here, rest, Work.runUncached]
  | text path next ih => exact ih _ keeps finds

end Storage.Keeps

/-! ## Requests -/

/-- The reply without the number of its tree, which says how many were answered before. -/
def Reply.unnumbered : Reply → Reply
  | .tree _ root => .tree 0 root
  | reply => reply

namespace Request

/-- The template that a request names, if it names one. -/
def template? : Request → Option Path
  | .parse path => some path
  | .extractFrom path _ _ => some path
  | .extract path _ => some path
  | .extractSection path _ => some path
  | _ => none

/-- Whether a request is about the index that was built last. -/
def readsIndex : Request → Bool
  | .loadIndex => true
  | .findSection _ => true
  | .indexText => true
  | _ => false

end Request

namespace Session

/-- As long as no file is stored or removed, the files stay and the cache keeps what they hold. -/
theorem keeps_run {storage : Storage} {session : Session} (files : session.storage = storage)
    (keeps : storage.Keeps session.cache) {requests : List Request}
    (quiet : ∀ request ∈ requests, request.keepsFiles = true) :
    (session.run requests).storage = storage ∧ storage.Keeps (session.run requests).cache := by
  induction requests generalizing session with
  | nil => exact ⟨files, keeps⟩
  | cons request requests ih =>
      have changes := session.step_changes request
      apply ih
      · rw [changes.storage (quiet request List.mem_cons_self), files]
      · rw [changes.cache, files]
        exact keeps.work _
      · exact fun later member => quiet later (List.mem_cons_of_mem _ member)

/-- The plan of a request comes from the files and the settings alone. -/
theorem plan_congr {session other : Session} {request : Request}
    (storage : session.storage = other.storage) (config : session.config = other.config)
    (current : request.readsIndex = false) : session.plan request = other.plan request := by
  cases request with
  | loadIndex => contradiction
  | _ => simp only [plan, storage, config]

/-- What a request answers in the end comes from the files and the settings alone, but for the
number of a tree. -/
theorem finish_congr (session : Session) {request : Request} (current : request.readsIndex = false)
    {a b : Session} (storage : a.storage = b.storage) (config : a.config = b.config) :
    let finish := ((session.plan request).run session.storage.source session.cache).1
    (finish a).1.map Reply.unnumbered = (finish b).1.map Reply.unnumbered := by
  cases request with
  | parse path =>
      simp only [plan, Work.run]
      cases Lookup.answer _ <;> rfl
  | buildIndex root =>
      rw [plan, gather_run_eq]
      rfl
  | findTemplates root => simp only [plan, Work.run, step, storage, config]
  | extractFrom path startLine query | extract path query | extractSection path argument
  | extractSpan path span =>
      rw [plan, Work.run_map]
      rfl
  | loadIndex | findSection argument | indexText => contradiction
  | put path contents | remove path | configure config => rfl

/-- The templates that a request asks for are found by their components, if the one that it names
is. -/
theorem finds_of_mem_asked {session : Session} {request : Request}
    (follows : ∀ path ∈ request.template?, session.storage.follows path = true) {path : Path}
    (member : path ∈ session.asked request) : session.storage.Finds path := by
  cases request with
  | parse named | extractFrom named _ _ | extract named _ | extractSection named _ =>
      obtain rfl := List.mem_singleton.mp member
      exact Storage.finds_of_follows (follows path rfl)
  | buildIndex root =>
      have listed := List.mem_mergeSort.mp member
      exact Storage.finds_of_mem_filesBelow (List.mem_of_mem_filter listed)
  | _ => cases member

/-- If the cache keeps what the files hold, the work for a request comes to what it comes to without
a cache. -/
theorem run_plan_eq {session : Session} (keeps : session.storage.Keeps session.cache)
    {request : Request} (follows : ∀ path ∈ request.template?, session.storage.follows path = true) :
    ((session.plan request).run session.storage.source session.cache).1 =
      (session.plan request).runUncached session.storage.source := by
  apply keeps.run_eq
  intro lookup member
  apply finds_of_mem_asked follows
  rw [← session.lookups_plan request]
  exact List.mem_map_of_mem member

/-- As long as no file is stored or removed, a request is answered as it would be by a session that
has been asked nothing before and has the same settings.  The template that it names, if it names
one, must be one that the files let it follow; the requests before it can be any, and so can the
directory of an index. -/
theorem history_independent (storage : Storage) (config : Config) {requests : List Request}
    (quiet : ∀ request ∈ requests, request.keepsFiles = true) {request : Request}
    (current : request.readsIndex = false)
    (follows : ∀ path ∈ request.template?, storage.follows path = true) :
    let session := ({ storage, config } : Session).run requests
    let fresh : Session := { storage, config := session.config }
    (session.step request).1.map Reply.unnumbered = (fresh.step request).1.map Reply.unnumbered := by
  intro session fresh
  obtain ⟨files, keeps⟩ : session.storage = storage ∧ storage.Keeps session.cache :=
    keeps_run rfl (.empty storage) quiet
  -- both do the same work, and it comes to the same result
  let work := (session.plan request).run session.storage.source session.cache
  let work' := (fresh.plan request).run storage.source {}
  have result : work'.1 = work.1 := by
    have samePlan : session.plan request = fresh.plan request := plan_congr files rfl current
    have cached : work.1 = _ := session.run_plan_eq (files ▸ keeps) (files ▸ follows)
    have uncached : work'.1 = _ := fresh.run_plan_eq (.empty storage) follows
    rw [cached, uncached, samePlan, files]
  have answered : session.step request = work.1 { session with cache := work.2 } :=
    session.step_eq_carryOut request
  have answered' : fresh.step request = work'.1 { fresh with cache := work'.2 } :=
    fresh.step_eq_carryOut request
  rw [answered, answered', result]
  exact session.finish_congr current files rfl

/-! ## Two spellings of one path -/

/-- A file in a directory, and a path to it with needless steps in between. -/
def detour (steps : Nat) : Path :=
  ⟨Text.bytes "d" ++ slash :: ((List.replicate steps [dot, slash]).flatten ++ Text.bytes "a.slim")⟩

theorem length_detour (steps : Nat) : (detour steps).bytes.length = 2 * steps + 8 := by
  have first : (Text.bytes "d").length = 1 := by decide +kernel
  have last : (Text.bytes "a.slim").length = 6 := by decide +kernel
  simp [detour, first, last]
  omega

theorem detour_nonempty (steps : Nat) : (detour steps).bytes ≠ [] := by
  intro empty
  have length := length_detour steps
  simp [empty] at length

theorem pieces_detour (steps : Nat) :
    (detour steps).pieces =
      Text.bytes "d" :: (List.replicate steps [dot] ++ [Text.bytes "a.slim"]) := by
  have noSlash : slash ∉ Text.bytes "d" := by decide +kernel
  have last : (Text.bytes "a.slim").splitOn slash = [Text.bytes "a.slim"] :=
    List.splitOn_eq_singleton (by decide +kernel)
  rw [Path.pieces, detour, ← last, ← splitOn_dots]
  exact List.splitOn_append_cons_self_of_not_mem noSlash _

theorem components_detour (steps : Nat) :
    (detour steps).components = (detour 0).components := by
  have dots : (List.replicate steps [dot]).filterMap Component.ofPiece = [] :=
    List.filterMap_replicate_of_none (by decide)
  rw [Path.components_of_pieces (pieces_detour steps) (detour_nonempty steps),
    Path.components_of_pieces (pieces_detour 0) (detour_nonempty 0), List.filterMap_append, dots]
  rfl

theorem isPlain_detour (steps : Nat) : (detour steps).isPlain = true := by
  apply Path.isPlain_of_suffix ⟨"a.slim", by decide +kernel⟩
  rw [detour, ← List.cons_append, ← List.append_assoc]
  exact List.suffix_append _ _

theorem read_detour_of_long {disk : Disk} {steps : Nat}
    (long : Disk.pathLimit < (detour steps).bytes.length) :
    disk.read (detour steps) = .error .nameTooLong := by
  have tooLong : Disk.fits (detour steps) = false := decide_eq_false (Nat.not_le.mpr long)
  rw [Disk.read_of_not_fits tooLong, components_detour, if_neg (by decide +kernel)]

/-- A path that is too long is not answered by a session that knows nothing yet. -/
theorem step_of_long {disk : Disk} {steps : Nat}
    (long : Disk.pathLimit < (detour steps).bytes.length) :
    let start : Session := { storage := .onDisk disk }
    (start.step (.parse (detour steps))).1 = .error (.read (detour steps) .nameTooLong) := by
  intro start
  have unread : start.storage.source.read (detour steps) = .error .nameTooLong :=
    read_detour_of_long long
  have failed : parseFile start.storage.source (detour steps) =
      .error (.read (detour steps) .nameTooLong) := by
    rw [parseFile, readText, unread]
    rfl
  have answer : (Lookup.mk start.storage.source (detour steps) start.cache).answer =
      .error (.read (detour steps) .nameTooLong) := by
    rw [Lookup.answer, Lookup.outcome, Cache.template_of_fault rfl failed]
  rw [step_parse]
  simp only [answer]

/-- A disk with the file. -/
def detourDisk : Disk := Disk.empty.put (detour 0) "p\n".toUTF8

/-- The tree of the file. -/
def detourTree : Node := .container [.block (.markup .tag "p") [.lineBreak]]

theorem find?_detour (steps : Nat) :
    let start : Session := { storage := .onDisk detourDisk }
    (start.run [.parse (detour 0)]).cache.find? (detour steps) = some detourTree := by
  intro start
  rw [Cache.find?_congr (components_detour steps)]
  decide +kernel

/-- Another spelling of a path, after a change of the settings: the tree is kept by then, and it is
the one that a fresh session finds. -/
theorem history_independent_detour :
    let start : Session := { storage := .onDisk detourDisk }
    let requests : List Request := [.parse (detour 0), .configure { indentWidth := 4 }]
    let fresh : Session := { start with config := (start.run requests).config }
    (start.run requests).cache.find? (detour 1) = some detourTree ∧
      (((start.run requests).step (.parse (detour 1))).1.map Reply.unnumbered =
        (fresh.step (.parse (detour 1))).1.map Reply.unnumbered) := by
  intro start requests fresh
  have quiet : ∀ request ∈ requests, request.keepsFiles = true := by decide
  have follows : ∀ path ∈ (Request.parse (detour 1)).template?,
      start.storage.follows path = true := by
    intro path named
    obtain rfl := Option.some.inj named
    decide +kernel
  exact ⟨find?_detour 1, history_independent start.storage {} quiet rfl follows⟩

/-- Once the file has been parsed, every spelling of its path gets the same tree. -/
theorem step_detour (steps : Nat) :
    let start : Session := { storage := .onDisk detourDisk }
    ((start.run [.parse (detour 0)]).step (.parse (detour steps))).1 =
      .ok (.tree 0 detourTree) := by
  intro start
  let after := start.run [.parse (detour 0)]
  have answer : (Lookup.mk after.storage.source (detour steps) after.cache).answer =
      .ok detourTree := by
    rw [Lookup.answer, Lookup.outcome, Cache.template_of_kept (find?_detour steps)]
  have place : (after.number (detour steps)).1 = 0 := by
    have answered : after.answered = [(detour 0).components] := by decide +kernel
    simp [number, components_detour steps, answered]
  exact step_parse_of_answer answer place

/-- A path that is longer than any the disk can follow is answered all the same, if its components
have been parsed before under a shorter one. -/
theorem long_path_remembered :
    let start : Session := { storage := .onDisk detourDisk }
    let remembered := ((start.run [.parse (detour 0)]).step (.parse (detour 2045))).1
    let unprepared := (start.step (.parse (detour 2045))).1
    (detour 0).isPlain = true ∧ (detour 2045).isPlain = true ∧
      remembered = .ok (.tree 0 detourTree) ∧
      unprepared = .error (.read (detour 2045) .nameTooLong) ∧
      remembered.map Reply.unnumbered ≠ unprepared.map Reply.unnumbered := by
  intro start remembered unprepared
  have kept : remembered = .ok (.tree 0 detourTree) := step_detour 2045
  have refused : unprepared = .error (.read (detour 2045) .nameTooLong) := by
    apply step_of_long
    rw [length_detour]
    decide
  refine ⟨isPlain_detour 0, isPlain_detour 2045, kept, refused, ?_⟩
  rw [kept, refused]
  intro same
  cases same

end Session

end Specimen
