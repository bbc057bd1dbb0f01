/-
# Specimen.Session — a sequence of requests.

Between requests a session keeps the files, the cache, the settings and the last index.  A request
may change the files or the settings, or ask for a tree, a block or an index; the cache outlives all
of them.  A request that fails leaves the changes it has made, such as the count of reads.
-/
import Specimen.Disk
import Specimen.Index

namespace Specimen

open Template

/-! ## Files -/

/-- Where the texts of a session are kept. -/
inductive Storage where
  /-- Texts by the components of their paths, beside a disk that they are not on. -/
  | inMemory (held : List (List Component × ByteArray)) (disk : Disk := .empty)
  | onDisk (disk : Disk)

namespace Storage

/-- Reads a text that is kept in memory. -/
def readHeld (held : List (List Component × ByteArray)) (path : Path) : Except ReadError String :=
  match held.lookup path.components with
  | some contents => decodeText contents
  | none => .error .noSuchTemplate

/-- What is stored, as a source.  The files below a path are looked for on the disk in any case,
also where the texts themselves are read from memory. -/
def source : Storage → Source
  | inMemory held disk => ⟨readHeld held, disk.filesBelow⟩
  | onDisk disk => disk.source

/-- Stores a file, in place of the one that is there. -/
def put (path : Path) (contents : ByteArray) : Storage → Storage
  | inMemory held disk =>
    inMemory ((path.components, contents) :: held.filter fun entry => entry.1 ≠ path.components)
      disk
  | onDisk disk => onDisk (disk.put path contents)

/-- Removes a file, if it is there. -/
def remove (path : Path) : Storage → Storage
  | inMemory held disk =>
    inMemory (held.filter fun entry => entry.1 ≠ path.components) disk
  | onDisk disk => onDisk (disk.remove path)

end Storage

/-! ## Requests and replies -/

/-- What a session can be asked. -/
inductive Request where
  | put (path : Path) (contents : ByteArray)
  | remove (path : Path)
  | configure (config : Config)
  | parse (path : Path)
  | extractFrom (path : Path) (startLine : Nat) (query : CallSite.Query)
  | extract (path : Path) (query : CallSite.Query)
  | extractSection (path : Path) (argument : String)
  | extractSpan (path : Path) (span : Span)
  | findTemplates (root : Path)
  | buildIndex (root : Path)
  | loadIndex
  | findSection (argument : String)
  | indexText

/-- What a session answers when a request succeeds. -/
inductive Reply where
  | done
  | configured (config : Config)
  /-- A tree, with its number among the trees that were answered before. -/
  | tree (number : Nat) (root : Node)
  | text (text : String)
  | extraction (extraction : Extraction)
  | paths (paths : List Path)
  | index (index : Index)
  | found (item : Option Section)

/-- The state of a session. -/
structure Session where
  storage : Storage
  config : Config := {}
  cache : Cache := {}
  index : Index := {}
  /-- The paths whose trees have been answered, each once, in order. -/
  answered : List (List Component) := []

namespace Session

/-- Runs work with the cache of a session. -/
def withCache (session : Session) (work : StateM Cache α) : α × Session :=
  let (result, cache) := work.run session.cache
  (result, { session with cache })

/-- Runs work that answers with a reply or an error. -/
def attempt (session : Session) (work : Caching α) (reply : α → Reply) :
    Except ExtractError Reply × Session :=
  let (result, session) := session.withCache work.run
  (result.map reply, session)

/-- The number of a path among those whose trees have been answered, and the session in which it
has one. -/
def number (session : Session) (path : Path) : Nat × Session :=
  let key := path.components
  if key ∈ session.answered then (session.answered.idxOf key, session)
  else (session.answered.length, { session with answered := session.answered ++ [key] })

/-- Answers a request. -/
def step (session : Session) : Request → Except ExtractError Reply × Session
  | .put path contents =>
    (.ok .done, { session with storage := session.storage.put path contents })
  | .remove path => (.ok .done, { session with storage := session.storage.remove path })
  | .configure config => (.ok (.configured config), { session with config })
  | .parse path =>
    let (result, session) := session.withCache (Cache.template session.storage.source path).run
    match result with
    | .error fault => (.error fault, session)
    | .ok root =>
      let (number, session) := session.number path
      (.ok (.tree number root), session)
  | .extractFrom path startLine query =>
    session.attempt
      (Specimen.extractFrom session.storage.source session.config path startLine query) .text
  | .extract path query =>
    session.attempt (Specimen.extract session.storage.source session.config path query) .extraction
  | .extractSection path argument =>
    session.attempt (Specimen.extractSection session.storage.source session.config path argument)
      .extraction
  | .extractSpan path span =>
    session.attempt (Specimen.extractSpan session.storage.source session.config path span) .text
  | .findTemplates root =>
    (.ok (.paths (Specimen.findTemplates session.storage.source session.config root)), session)
  | .buildIndex root =>
    let (index, session) :=
      session.withCache (Index.build session.storage.source session.config root)
    (.ok (.index index), { session with index })
  | .loadIndex =>
    let ((fault, index), session) :=
      session.withCache (session.index.load session.storage.source session.config)
    let session := { session with index }
    match fault with
    | some fault => (.error fault, session)
    | none => (.ok (.index index), session)
  | .findSection argument => (.ok (.found (session.index.find? argument)), session)
  | .indexText => (.ok (.text session.index.toJsonText), session)

end Session

end Specimen
