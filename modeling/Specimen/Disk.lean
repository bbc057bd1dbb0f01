/-
# Specimen.Disk — directories and files.

A disk holds files and directories below its root, and one of the directories is the working
directory.  Each is found by its location, the list of names that leads to it from the root.  A path
is walked piece by piece, from the root if a slash stands in front of it and from the working
directory otherwise.  Every piece, even an empty one, needs a directory to stand in, so a slash
behind the name of a file leads nowhere; two dots lead from the root to the root.

Beside regular files and directories there are devices, pipes and sockets.  What a reading of one
gives is part of the disk; it is no different from one reading to the next.

Names and paths have a greatest length.  It bounds the path as it is written, so one file may be
within reach from its directory and out of reach from further up.

Not modelled: symbolic links, and access rights.  Whoever asks may read every file and list and
search every directory, so that a walk below a directory meets no errors.
-/
import Specimen.Source

namespace Specimen

/-- The names that lead from the root to a file or directory. -/
abbrev Location := List FileName

/-- What a location holds. -/
inductive Entry where
  /-- A regular file. -/
  | file (contents : ByteArray)
  | directory
  /-- Anything else, with what comes of reading it. -/
  | special (reading : Except ReadError ByteArray)

/-- Files and directories by location.  The root itself is not listed. -/
structure Disk where
  entries : List (Location × Entry)
  /-- A location holds one thing. -/
  distinct : (entries.map Prod.fst).Nodup
  /-- The working directory. -/
  working : Location

namespace Disk

/-- The name of the working directory of a new disk. -/
def workName : FileName := ⟨"work", by decide +kernel⟩

/-- Nothing but a working directory. -/
def empty : Disk := ⟨[([workName], .directory)], by simp, [workName]⟩

/-- What a location holds. -/
def entry? (disk : Disk) (location : Location) : Option Entry :=
  if location = [] then some .directory else disk.entries.lookup location

/-- Puts an entry at a location, in place of what is there. -/
def insert (disk : Disk) (location : Location) (entry : Entry) : Disk where
  entries := (location, entry) :: disk.entries.filter fun held => held.1 ≠ location
  distinct := by
    rw [List.map_cons, List.nodup_cons]
    refine ⟨?_, (disk.distinct.sublist ((List.filter_sublist).map _))⟩
    simp
  working := disk.working

/-- Leaves a location empty. -/
def erase (disk : Disk) (location : Location) : Disk where
  entries := disk.entries.filter fun held => held.1 ≠ location
  distinct := disk.distinct.sublist ((List.filter_sublist).map _)
  working := disk.working

/-! ## Walking along a path -/

/-- The longest name, in bytes. -/
def nameLimit : Nat := 255

/-- The longest path, in bytes. -/
def pathLimit : Nat := 4095

/-- The location that a component of a path leads to from a directory.  What stands in front of a
path says where the walk starts and leads no further. -/
def follow (disk : Disk) (location : Location) : Component → Except ReadError Location
  | .root => .ok location
  | .current => .ok location
  | .parent => .ok location.dropLast
  | .name name =>
    if nameLimit < name.bytes.length then .error .nameTooLong
    else if (disk.entry? (location ++ [name])).isSome then .ok (location ++ [name])
    else .error .notFound

/-- One step of a walk. -/
def step (disk : Disk) (location : Location) (piece : Bytes) : Except ReadError Location :=
  match disk.entry? location with
  | some .directory =>
    match Component.ofPiece piece with
    | none => .ok location
    | some component => disk.follow location component
  | _ => .error .notDirectory

/-- Whether a path is short enough to be followed. -/
def fits (path : Path) : Bool := path.bytes.length ≤ pathLimit

/-- Where the walk along a path starts. -/
def start (disk : Disk) (path : Path) : Location :=
  if path.bytes.head? = some slash then [] else disk.working

/-- The location that a path leads to. -/
def locate (disk : Disk) (path : Path) : Except ReadError Location :=
  if 0 ∈ path.bytes then .error .nulInName
  else if path.bytes = [] then .error .notFound
  else if !fits path then .error .nameTooLong
  else path.pieces.foldlM disk.step (disk.start path)

/-! ## Reading -/

/-- Reads what a location holds. -/
def readEntry : Option Entry → Except ReadError String
  | none => .error .notFound
  | some .directory => .error .isDirectory
  | some (.file contents) => decodeText contents
  | some (.special reading) => reading.bind decodeText

/-- Reads the file that a path leads to. -/
def read (disk : Disk) (path : Path) : Except ReadError String :=
  match disk.locate path with
  | .error fault => .error fault
  | .ok location => readEntry (disk.entry? location)

/-- The names that lead from one location to another below it. -/
def relative? (location other : Location) : Option Location := location.isPrefixOf? other

/-- The path of a regular file at or below a location, from a path that leads to the location: that
path with the names below it joined to it, one after the other. -/
def joined? (path : Path) (location : Location) : Location × Entry → Option Path
  | (held, .file _) => (relative? location held).map fun names =>
    names.foldl (fun path name => path.join name.bytes) path
  | _ => none

/-- The regular files at or below a path.  A file is not seen there if its own path is too long. -/
def filesBelow (disk : Disk) (path : Path) : List Path :=
  match disk.locate path with
  | .ok location => (disk.entries.filterMap (joined? path location)).filter fits
  | .error _ => []

/-- The disk as a source. -/
def source (disk : Disk) : Source := ⟨disk.read, disk.filesBelow⟩

/-! ## Changing -/

/-- Follows a path from a location and makes the directories that are missing on it.  It cannot be
followed through anything but a directory. -/
def makeDirectories (disk : Disk) (location : Location) :
    List Bytes → Option (Disk × Location)
  | [] => some (disk, location)
  | piece :: pieces =>
    match Component.ofPiece piece with
    | none => makeDirectories disk location pieces
    | some (.name name) =>
      match disk.entry? (location ++ [name]) with
      | none =>
        makeDirectories (disk.insert (location ++ [name]) .directory) (location ++ [name]) pieces
      | some .directory => makeDirectories disk (location ++ [name]) pieces
      | some _ => none
    | some _ => makeDirectories disk location.dropLast pieces

/-- Stores a file and the directories on its path.  A path that ends in a slash makes a directory
and no file.  What cannot be stored leaves the disk as it is. -/
def put (disk : Disk) (path : Path) (contents : ByteArray) : Disk :=
  match disk.makeDirectories (disk.start path) path.pieces.dropLast with
  | none => disk
  | some (made, location) =>
    match path.pieces.getLast?.bind Component.ofPiece with
    | some (.name name) =>
      match made.entry? (location ++ [name]) with
      | some .directory => disk
      | some (.special _) => disk
      | _ => made.insert (location ++ [name]) (.file contents)
    | _ => made

/-- Removes a file.  A path that leads to a directory or nowhere changes nothing. -/
def remove (disk : Disk) (path : Path) : Disk :=
  match disk.locate path with
  | .error _ => disk
  | .ok location =>
    match disk.entry? location with
    | none => disk
    | some .directory => disk
    | some _ => disk.erase location

end Disk

end Specimen
