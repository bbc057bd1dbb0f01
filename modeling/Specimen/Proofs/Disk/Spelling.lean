/-
# Specimen.Proofs.Disk.Spelling — how much of a path's spelling a disk sees.

Paths with the same components can be spelled in many ways.  Beside the components, a disk sees two
things: whether the path is short enough to be followed, and whether it is plain.  A path that is
not plain asks for a directory at its end; it is read as a plain one would be, unless that one leads
to something else, be it a file, a device or a pipe.  `read_congr` says when two spellings are read
alike, and `read_of_not_plain` what happens when they are not.
-/
import Mathlib.Data.List.Induction
import Specimen.Proofs.Disk.Tree
import Specimen.Proofs.Disk.Walk

namespace Specimen

open Component

namespace Path

/-- What stands behind the last slash of a path that is not plain is no component. -/
theorem exists_last_of_not_plain {path : Path} (notPlain : path.isPlain = false) :
    ∃ first rest last, path.pieces = first :: (rest ++ [last]) ∧ ofPiece last = none := by
  have ends : ∃ front last, path.bytes = front ++ slash :: last ∧ slash ∉ last ∧
      ofPiece last = none := by
    simp only [isPlain, Bool.and_eq_false_iff, Bool.not_eq_false', List.isSuffixOf_iff_suffix]
      at notPlain
    rcases notPlain with ⟨front, slashed⟩ | ⟨front, dotted⟩
    · exact ⟨front, [], slashed.symm, by decide, by decide⟩
    · exact ⟨front, [dot], dotted.symm, by decide, by decide⟩
  obtain ⟨front, last, split, noSlash, none⟩ := ends
  obtain ⟨first, rest, cut⟩ := List.exists_cons_of_ne_nil (List.splitOn_ne_nil slash front)
  refine ⟨first, rest, last, ?_, none⟩
  rw [pieces, split, List.splitOn_append_cons_self, List.splitOn_eq_singleton noSlash, cut]
  rfl

end Path

namespace Disk

variable {disk : Disk} {location : Location} {components : List Component} {path other : Path}

/-! ## Behind the last component -/

/-- Stops at a location, which must hold a directory. -/
def standIn (disk : Disk) (location : Location) : Except ReadError Location :=
  match disk.entry? location with
  | some .directory => .ok location
  | _ => .error .notDirectory

theorem standIn_of_directory (directory : disk.entry? location = some .directory) :
    disk.standIn location = .ok location := by
  rw [standIn, directory]

theorem standIn_of_not_directory (other : disk.entry? location ≠ some .directory) :
    disk.standIn location = .error .notDirectory := by
  unfold standIn
  split
  · contradiction
  · rfl

theorem step_eq_standIn {piece : Bytes} (none : ofPiece piece = none) (location : Location) :
    disk.step location piece = disk.standIn location := by
  rw [step, none]
  rfl

theorem standIn_standIn (found : Except ReadError Location) :
    (found >>= disk.standIn) >>= disk.standIn = found >>= disk.standIn := by
  rcases found with fault | location
  · rfl
  · show disk.standIn location >>= disk.standIn = disk.standIn location
    by_cases directory : disk.entry? location = some .directory
    · rw [standIn_of_directory directory]
      exact standIn_of_directory directory
    · rw [standIn_of_not_directory directory]
      rfl

theorem foldlM_step_concat (first : Bytes) (rest : List Bytes) (last : Bytes) :
    (first :: (rest ++ [last])).foldlM disk.step location =
      (first :: rest).foldlM disk.step location >>= (disk.step · last) := by
  rw [← List.cons_append, List.foldlM_append]
  simp only [List.foldlM_cons, List.foldlM_nil, bind_pure]

/-- Once a directory is asked for at the end, pieces lead where their components lead. -/
theorem foldlM_step_standIn {first : Bytes} (noSlash : slash ∉ first) (rest : List Bytes) :
    (first :: rest).foldlM disk.step location >>= disk.standIn =
      (Path.leading first ++ rest.filterMap ofPiece).foldlM disk.walkStep location >>=
        disk.standIn := by
  -- from the end, since pieces that give a component there can be followed as they are
  induction rest using List.reverseRecOn with
  | nil => rw [foldlM_step_leading noSlash (.inr (by simp))]
  | append_singleton rest last ih =>
      cases gives : ofPiece last with
      | some component =>
          have ends : ∀ piece ∈ (rest ++ [last]).getLast?, (ofPiece piece).isSome = true := by
            simp [gives]
          rw [foldlM_step_leading noSlash (.inr ends)]
      | none =>
          -- such a piece asks for a directory itself
          have asks : (fun location => disk.step location last) = disk.standIn :=
            funext (step_eq_standIn gives)
          rw [foldlM_step_concat, asks, standIn_standIn, ih, List.filterMap_append]
          simp [gives]

/-- A path that is not plain leads to the directory that its components lead to. -/
theorem locate_of_not_plain (fits : fits path = true) (notPlain : path.isPlain = false) :
    disk.locate path = disk.walk path.components >>= disk.standIn := by
  by_cases nul : 0 ∈ path.bytes
  · obtain ⟨located, walked⟩ := disk.locate_of_nul nul
    rw [located, walked]
    rfl
  obtain ⟨first, rest, last, cut, none⟩ := Path.exists_last_of_not_plain notPlain
  have nonempty : path.bytes ≠ [] := by
    intro empty
    simp [Path.pieces, empty] at cut
  have noSlash : slash ∉ first :=
    Path.noSlash_of_mem_pieces (by rw [cut]; exact List.mem_cons_self)
  have asks : (fun location => disk.step location last) = disk.standIn :=
    funext (step_eq_standIn none)
  have components : path.components = Path.leading first ++ rest.filterMap ofPiece := by
    rw [Path.components_of_pieces cut nonempty, List.filterMap_append]
    simp [none]
  rw [locate_eq_foldlM nul nonempty fits, cut, foldlM_step_concat, asks,
    foldlM_step_standIn noSlash, walk_eq_foldlM nul nonempty, components]

theorem locate_eq (short : fits path = true) :
    disk.locate path = if path.isPlain then disk.walk path.components
      else disk.walk path.components >>= disk.standIn := by
  split
  · next plain => exact locate_eq_walk short (.inl plain)
  · next notPlain => exact locate_of_not_plain short (by simpa using notPlain)

/-! ## What a walk can come to -/

/-- A step in a tree leads to something. -/
theorem IsTree.isSome_of_walkStep (tree : disk.IsTree) {component : Component} {next : Location}
    (stepped : disk.walkStep location component = .ok next) : (disk.entry? next).isSome = true := by
  unfold walkStep at stepped
  split at stepped
  · next directory =>
    cases component with
    | root | current =>
        obtain rfl := Except.ok.inj stepped
        rw [directory]
        rfl
    | parent =>
        obtain rfl := Except.ok.inj stepped
        rw [tree.parent directory]
        rfl
    | name name =>
        rw [follow] at stepped
        split at stepped
        · contradiction
        · split at stepped
          · next there =>
            obtain rfl := Except.ok.inj stepped
            exact there
          · contradiction
  · contradiction

theorem IsTree.isSome_of_walkSteps (tree : disk.IsTree) {final : Location}
    (here : (disk.entry? location).isSome = true)
    (reached : components.foldlM disk.walkStep location = .ok final) :
    (disk.entry? final).isSome = true := by
  induction components generalizing location with
  | nil =>
      obtain rfl := Except.ok.inj reached
      exact here
  | cons component components ih =>
      rw [List.foldlM_cons] at reached
      cases stepped : disk.walkStep location component with
      | error fault =>
          rw [stepped] at reached
          contradiction
      | ok next =>
          rw [stepped] at reached
          exact ih (tree.isSome_of_walkStep stepped) reached

theorem IsTree.isSome_of_walk (tree : disk.IsTree) (found : disk.walk components = .ok location) :
    (disk.entry? location).isSome = true := by
  have start : (disk.entry? (disk.walkStart components)).isSome = true := by
    unfold walkStart
    split
    · rw [entry?_nil]
      rfl
    · rw [tree.working]
      rfl
  unfold walk at found
  split at found
  · contradiction
  · split at found
    · contradiction
    · exact tree.isSome_of_walkSteps start found

/-! ## Reading -/

/-- Reads what stands at the location that was found. -/
def readFound (disk : Disk) (found : Except ReadError Location) : Except ReadError String :=
  found.bind fun location => readEntry (disk.entry? location)

theorem read_eq_readFound (path : Path) : disk.read path = disk.readFound (disk.locate path) := by
  rw [read]
  cases disk.locate path <;> rfl

/-- Whether a location that was found holds something that is no directory. -/
def FindsOther (disk : Disk) (found : Except ReadError Location) : Prop :=
  ∃ location entry, found = .ok location ∧ disk.entry? location = some entry ∧ entry ≠ .directory

/-- Whether a path leads to something that is no directory: a file, a device, a pipe or a socket. -/
def LeadsToOther (disk : Disk) (path : Path) : Prop := disk.FindsOther (disk.locate path)

/-- To ask for a directory makes no difference to what is read, unless there is something else. -/
theorem IsTree.readFound_standIn (tree : disk.IsTree)
    (noOther : ¬ disk.FindsOther (disk.walk components)) :
    disk.readFound (disk.walk components >>= disk.standIn) =
      disk.readFound (disk.walk components) := by
  cases found : disk.walk components with
  | error fault => rfl
  | ok location =>
      obtain ⟨entry, holds⟩ := Option.isSome_iff_exists.mp (tree.isSome_of_walk found)
      have directory : disk.entry? location = some .directory := by
        by_contra differs
        exact noOther ⟨location, entry, found, holds, fun same => differs (same ▸ holds)⟩
      show disk.readFound (disk.standIn location) = disk.readFound (.ok location)
      rw [standIn_of_directory directory]

/-- A path that is too long is not read, whatever is there. -/
theorem read_of_not_fits (long : fits path = false) :
    disk.read path =
      .error (if ∃ component ∈ path.components, 0 ∈ component.nameBytes then .nulInName
        else .nameTooLong) := by
  have nul := path.mem_bytes_iff (c := 0) (by decide) (by decide)
  have nonempty : path.bytes ≠ [] := by
    intro empty
    simp [fits, empty] at long
  rw [read, locate]
  by_cases dirty : 0 ∈ path.bytes
  · rw [if_pos dirty, if_pos (nul.mp dirty)]
  · have tooLong : (!fits path) = true := by simp [long]
    rw [if_neg dirty, if_neg (fun found => dirty (nul.mpr found)), if_neg nonempty,
      if_pos tooLong]

/-! ## Spellings of the same components -/

/-- If its components lead to nothing but a directory, they alone say what a path reads. -/
theorem IsTree.read_of_no_other (tree : disk.IsTree) (short : fits path = true)
    (noOther : ¬ disk.FindsOther (disk.walk path.components)) :
    disk.read path = disk.readFound (disk.walk path.components) := by
  rw [read_eq_readFound, locate_eq short]
  split
  · rfl
  · exact tree.readFound_standIn noOther

/-- Two spellings are read alike if both are short enough or both too long, and both are plain or
neither is.  Where they lead to nothing but a directory, the second does not matter. -/
theorem IsTree.read_congr (tree : disk.IsTree) (same : path.components = other.components)
    (size : fits path = fits other)
    (alike : path.isPlain = other.isPlain ∨ ¬ disk.LeadsToOther path ∧ ¬ disk.LeadsToOther other) :
    disk.read path = disk.read other := by
  cases short : fits path with
  | false => rw [read_of_not_fits short, read_of_not_fits (size ▸ short), same]
  | true =>
      have short' : fits other = true := size ▸ short
      by_cases ends : path.isPlain = other.isPlain
      · rw [read_eq_readFound, read_eq_readFound, locate_eq short, locate_eq short', same, ends]
      · obtain ⟨apart, apart'⟩ := alike.resolve_left ends
        -- the one that is plain would lead there
        have noOther : ¬ disk.FindsOther (disk.walk other.components) := by
          intro finds
          cases plain : other.isPlain with
          | true =>
              rw [← locate_eq_walk short' (.inl plain)] at finds
              exact apart' finds
          | false =>
              have plain' : path.isPlain = true := by simpa [plain] using ends
              rw [← same, ← locate_eq_walk short (.inl plain')] at finds
              exact apart finds
        rw [tree.read_of_no_other short (same ▸ noOther), tree.read_of_no_other short' noOther,
          same]

/-- Where a path leads to something that is no directory, one with the same components that is not
plain cannot be followed. -/
theorem read_of_not_plain (leads : disk.LeadsToOther path)
    (same : path.components = other.components) (short : fits other = true)
    (notPlain : other.isPlain = false) : disk.read other = .error .notDirectory := by
  obtain ⟨location, entry, found, holds, differs⟩ := leads
  have reached : disk.walk other.components = .ok location := by
    rw [← same, ← locate_eq_walk (fits_of_locate found) (.inr ⟨location, found⟩), found]
  have refused : disk.standIn location = .error .notDirectory :=
    standIn_of_not_directory fun directory =>
      differs (Option.some.inj (holds.symm.trans directory))
  have stopped : disk.locate other = .error .notDirectory := by
    rw [locate_of_not_plain short notPlain, reached]
    exact refused
  rw [read, stopped]

end Disk

end Specimen
