/-
# Specimen.Path — the names of files.

A path is kept as it was given, since messages repeat it.  Its meaning is its list of components:
it is cut at slashes, empty pieces and single dots fall away, and only a leading slash or a leading
dot leaves a component of its own.  Two paths are the same file name if their components are equal,
and paths are ordered by their components, from the first on.

The system takes all bytes in a name but the slash, and a path need not be text.
-/
import Specimen.Text.Utf8

namespace Specimen

/-- The byte that separates the names in a path. -/
def slash : UInt8 := 0x2F

/-- The byte that begins the extension of a name. -/
def dot : UInt8 := 0x2E

/-! ## Names -/

/-- Whether a piece of a path can name something in a directory.  The empty piece, the dot and the
two dots have meanings of their own, and a slash belongs to no piece. -/
def isName (piece : Bytes) : Bool :=
  piece ≠ [] && piece ≠ [dot] && piece ≠ [dot, dot] && slash ∉ piece

/-- The name of a file or directory in the directory that holds it. -/
structure FileName where
  bytes : Bytes
  proper : isName bytes = true
  deriving DecidableEq, Repr

/-! ## Components -/

/-- A step of a path. -/
inductive Component where
  /-- The slash in front of an absolute path. -/
  | root
  /-- A dot in front of a path. -/
  | current
  /-- Two dots. -/
  | parent
  | name (name : FileName)
  deriving DecidableEq, Repr

namespace Component

/-- The special components stand before all names. -/
def rank : Component → Nat
  | root => 0
  | current => 1
  | parent => 2
  | name _ => 3

/-- The bytes of a name; none for the special components. -/
def nameBytes : Component → Bytes
  | .name held => held.bytes
  | _ => []

instance : Ord Component := ⟨compareLex (compareOn rank) (compareOn nameBytes)⟩

instance : Std.TransOrd Component :=
  inferInstanceAs (Std.TransCmp (compareLex (compareOn rank) (compareOn nameBytes)))

/-- The component that a piece between two slashes gives, if it gives one. -/
def ofPiece (piece : Bytes) : Option Component :=
  if proper : isName piece = true then some (name ⟨piece, proper⟩)
  else if piece = [dot, dot] then some parent
  else none

end Component

/-! ## Paths -/

/-- A path, as it was given. -/
structure Path where
  bytes : Bytes
  deriving DecidableEq, Repr

namespace Path

/-- A path as text, for people to read. -/
def text (path : Path) : String := Text.readable path.bytes

instance : ToString Path := ⟨text⟩

/-- A path that is given as text is shown as that text. -/
@[simp]
theorem text_mk (given : String) : (Path.mk given).text = given := Text.readable_bytes given

/-- The pieces between the slashes; some may be empty. -/
def pieces (path : Path) : List Bytes := path.bytes.splitOn slash

/-- The components that the first piece of a path gives. -/
def leading (first : Bytes) : List Component :=
  if first = [] then [.root]
  else if first = [dot] then [.current]
  else (Component.ofPiece first).toList

/-- The components of a path. -/
def components (path : Path) : List Component :=
  if path.bytes = [] then []
  else leading (path.pieces.headD []) ++ (path.pieces.drop 1).filterMap Component.ofPiece

/-- Paths are compared component by component. -/
def precedes (a b : Path) : Bool := (compare a.components b.components).isLE

/-- The path of a name below a directory. -/
def join (path : Path) (name : Bytes) : Path :=
  if path.bytes = [] ∨ path.bytes.getLast? = some slash then ⟨path.bytes ++ name⟩
  else ⟨path.bytes ++ slash :: name⟩

/-! ## Extensions -/

/-- The part of a name behind its last dot.  A dot at the front of a name does not count. -/
def nameExtension? (name : Bytes) : Option Bytes :=
  match name.reverse.dropWhile (· ≠ dot) with
  | [] => none
  | [_] => none
  | _ => some (name.reverse.takeWhile (· ≠ dot)).reverse

/-- The extension of the file that a path names. -/
def extension? (path : Path) : Option Bytes :=
  match path.components.getLast? with
  | some (.name name) => nameExtension? name.bytes
  | _ => none

end Path

end Specimen
