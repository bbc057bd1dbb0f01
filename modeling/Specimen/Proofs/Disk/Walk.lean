/-
# Specimen.Proofs.Disk.Walk — reading by components.

A path is walked piece by piece, and a piece that is no component still asks for a directory to
stand in.  So what is read depends on more than the components of a path, but not on much more: on
its length, and on what stands behind its last component.  `walk` goes along components alone, and
`locate_eq_walk` says that it finds what the path finds, if the path is short enough and is plain,
or leads anywhere at all.
-/
import Specimen.Disk
import Specimen.Proofs.Path.Components

namespace Specimen.Disk

open Component

/-! ## Along components -/

/-- One step of a walk along components. -/
def walkStep (disk : Disk) (location : Location) (component : Component) :
    Except ReadError Location :=
  match disk.entry? location with
  | some .directory => disk.follow location component
  | _ => .error .notDirectory

/-- Where a walk along components starts. -/
def walkStart (disk : Disk) : List Component → Location
  | .root :: _ => []
  | _ => disk.working

/-- The location that components lead to. -/
def walk (disk : Disk) (components : List Component) : Except ReadError Location :=
  if ∃ component ∈ components, 0 ∈ component.nameBytes then .error .nulInName
  else if components = [] then .error .notFound
  else components.foldlM disk.walkStep (disk.walkStart components)

/-- Reads the file that components lead to. -/
def readAt (disk : Disk) (components : List Component) : Except ReadError String :=
  match disk.walk components with
  | .error fault => .error fault
  | .ok location => readEntry (disk.entry? location)

variable {disk : Disk} {location : Location} {piece : Bytes}

/-! ## Pieces and components -/

theorem step_of_component {component : Component} (gives : ofPiece piece = some component) :
    disk.step location piece = disk.walkStep location component := by
  rcases entry : disk.entry? location with _ | _ | _ | _ <;> simp [step, walkStep, entry, gives]

/-- A piece that is no component is passed over, if it stands in a directory. -/
theorem step_of_directory (none : ofPiece piece = none)
    (directory : disk.entry? location = some .directory) :
    disk.step location piece = .ok location := by
  unfold step
  rw [directory, none]

/-- Nothing can be stepped into but a directory. -/
theorem steps_of_not_directory (other : disk.entry? location ≠ some .directory)
    (piece : Bytes) :
    disk.step location piece = .error .notDirectory ∧
      ∀ component, disk.walkStep location component = .error .notDirectory := by
  unfold step walkStep
  constructor
  · split
    · contradiction
    · rfl
  · intro component
    split
    · contradiction
    · rfl

/-- Nothing is lost with the pieces that are no components: the walk succeeds, or the last piece is a
component. -/
def Leads (disk : Disk) (location : Location) (ps : List Bytes) : Prop :=
  (∃ final, ps.foldlM disk.step location = .ok final) ∨
    ∀ last ∈ ps.getLast?, (ofPiece last).isSome = true

theorem Leads.tail {ps : List Bytes} (leads : disk.Leads location (piece :: ps)) {next : Location}
    (stepped : disk.step location piece = .ok next) : disk.Leads next ps := by
  rcases leads with ⟨final, reached⟩ | ends
  · rw [List.foldlM_cons, stepped] at reached
    exact .inl ⟨final, reached⟩
  · refine .inr fun last inside => ends last ?_
    rw [List.getLast?_cons, Option.mem_def.mp inside]
    rfl

/-- A walk that is stopped by a piece that is no component has a component ahead of it. -/
theorem Leads.ne_nil {ps : List Bytes} (leads : disk.Leads location (piece :: ps))
    {fault : ReadError} (refused : disk.step location piece = .error fault)
    (none : ofPiece piece = none) : ps.filterMap ofPiece ≠ [] := by
  intro nothing
  rcases leads with ⟨final, reached⟩ | ends
  · rw [List.foldlM_cons, refused] at reached
    contradiction
  · have noComponent : ∀ part ∈ piece :: ps, ofPiece part = .none :=
      List.forall_mem_cons.mpr ⟨none, List.filterMap_eq_nil_iff.mp nothing⟩
    have lastOne := List.cons_ne_nil piece ps
    have isComponent := ends _ (List.getLast?_eq_some_getLast lastOne)
    rw [noComponent _ (List.getLast_mem lastOne)] at isComponent
    contradiction

/-- Pieces lead where their components lead. -/
theorem foldlM_step {ps : List Bytes} (leads : disk.Leads location ps) :
    ps.foldlM disk.step location = (ps.filterMap ofPiece).foldlM disk.walkStep location := by
  induction ps generalizing location with
  | nil => rfl
  | cons piece ps ih =>
      rw [List.foldlM_cons]
      cases gives : ofPiece piece with
      | some component =>
          rw [List.filterMap_cons_some gives, List.foldlM_cons, ← step_of_component gives]
          cases stepped : disk.step location piece with
          | error fault => rfl
          | ok next => exact ih (leads.tail stepped)
      | none =>
          rw [List.filterMap_cons_none gives]
          by_cases directory : disk.entry? location = some .directory
          · have stepped := step_of_directory gives directory
            rw [stepped]
            exact ih (leads.tail stepped)
          · obtain ⟨refused, others⟩ := steps_of_not_directory directory piece
            -- the next component is refused for the same reason, and there is one
            obtain ⟨component, rest, more⟩ :=
              List.exists_cons_of_ne_nil (leads.ne_nil refused gives)
            rw [refused, more, List.foldlM_cons, others component]
            rfl

/-! ## Paths and components -/

theorem locate_eq_foldlM {path : Path} (clean : 0 ∉ path.bytes) (nonempty : path.bytes ≠ [])
    (fits : fits path = true) :
    disk.locate path = path.pieces.foldlM disk.step (disk.start path) := by
  rw [locate, if_neg clean, if_neg nonempty, if_neg (by simp [fits])]

/-- What the first piece gives is followed like any other component. -/
theorem exists_leading (disk : Disk) {first : Bytes} (noSlash : slash ∉ first) :
    ∃ component, Path.leading first = [component] ∧
      ∀ location, disk.step location first = disk.walkStep location component := by
  unfold Path.leading
  split
  · next empty =>
    subst empty
    refine ⟨.root, rfl, fun location => ?_⟩
    rcases entry : disk.entry? location with _ | _ | _ | _ <;>
      simp [step, walkStep, entry, ofPiece, isName, follow]
  · split
    · next dotted =>
      subst dotted
      refine ⟨.current, rfl, fun location => ?_⟩
      rcases entry : disk.entry? location with _ | _ | _ | _ <;>
        simp [step, walkStep, entry, ofPiece, isName, follow]
    · next notEmpty notDot =>
      obtain ⟨component, gives⟩ :=
        Option.isSome_iff_exists.mp (isSome_ofPiece notEmpty notDot noSlash)
      exact ⟨component, by rw [gives]; rfl, fun _ => step_of_component gives⟩

/-- The pieces of a path lead where its components lead. -/
theorem foldlM_step_leading {first : Bytes} {rest : List Bytes} (noSlash : slash ∉ first)
    (leads : (∃ final, (first :: rest).foldlM disk.step location = .ok final) ∨
      ∀ last ∈ rest.getLast?, (ofPiece last).isSome = true) :
    (first :: rest).foldlM disk.step location =
      (Path.leading first ++ rest.filterMap ofPiece).foldlM disk.walkStep location := by
  obtain ⟨component, only, same⟩ := exists_leading disk noSlash
  rw [only, List.singleton_append, List.foldlM_cons, List.foldlM_cons, ← same]
  cases stepped : disk.step location first with
  | error fault => rfl
  | ok next =>
      rw [List.foldlM_cons, stepped] at leads
      exact foldlM_step leads

/-- A path and its components start at the same place. -/
theorem start_eq_walkStart {path : Path} (nonempty : path.bytes ≠ []) :
    disk.start path = disk.walkStart path.components := by
  obtain ⟨first, rest, cut⟩ := path.exists_pieces
  have absolute := Path.first_eq_nil_iff cut nonempty
  rw [Path.components_of_pieces cut nonempty, start, Path.leading]
  by_cases empty : first = []
  · rw [if_pos (absolute.mp empty), if_pos empty]
    rfl
  · rw [if_neg (mt absolute.mpr empty), if_neg empty]
    split
    · rfl
    · next notDot =>
      have noSlash : slash ∉ first :=
        Path.noSlash_of_mem_pieces (by rw [cut]; exact List.mem_cons_self)
      obtain ⟨component, gives⟩ :=
        Option.isSome_iff_exists.mp (isSome_ofPiece empty notDot noSlash)
      rw [gives]
      -- a piece of its own is never the root
      unfold ofPiece at gives
      split at gives
      · obtain rfl := Option.some.inj gives
        rfl
      · split at gives
        · obtain rfl := Option.some.inj gives
          rfl
        · cases gives

/-- With a NUL in it a path leads nowhere, and neither do its components. -/
theorem locate_of_nul (disk : Disk) {path : Path} (nul : 0 ∈ path.bytes) :
    disk.locate path = .error .nulInName ∧ disk.walk path.components = .error .nulInName := by
  have named := (path.mem_bytes_iff (c := 0) (by decide) (by decide)).mp nul
  exact ⟨by rw [locate, if_pos nul], by rw [walk, if_pos named]⟩

theorem walk_eq_foldlM {path : Path} (clean : 0 ∉ path.bytes) (nonempty : path.bytes ≠ []) :
    disk.walk path.components = path.components.foldlM disk.walkStep (disk.start path) := by
  have named := mt (path.mem_bytes_iff (c := 0) (by decide) (by decide)).mpr clean
  rw [walk, if_neg named, if_neg (mt Path.components_eq_nil_iff.mp nonempty),
    start_eq_walkStart nonempty]

/-- A path finds what its components find, if it is short enough and, in case it finds nothing, is
plain. -/
theorem locate_eq_walk {path : Path} (fits : fits path = true)
    (leads : path.isPlain = true ∨ ∃ location, disk.locate path = .ok location) :
    disk.locate path = disk.walk path.components := by
  by_cases nul : 0 ∈ path.bytes
  · obtain ⟨located, walked⟩ := disk.locate_of_nul nul
    rw [located, walked]
  by_cases empty : path.bytes = []
  · rw [locate, if_neg nul, if_pos empty, Path.components_eq_nil_iff.mpr empty]
    simp [walk]
  obtain ⟨first, rest, cut⟩ := path.exists_pieces
  rw [walk_eq_foldlM nul empty, Path.components_of_pieces cut empty]
  rw [locate_eq_foldlM nul empty fits, cut] at leads ⊢
  apply foldlM_step_leading (Path.noSlash_of_mem_pieces (by rw [cut]; exact List.mem_cons_self))
  rcases leads with plain | reached
  · refine .inr fun last inside => ?_
    obtain ⟨front, rfl⟩ := List.getLast?_eq_some_iff.mp inside
    exact Path.isSome_last_of_isPlain plain cut
  · exact .inl reached

theorem fits_of_locate {path : Path} (found : disk.locate path = .ok location) :
    fits path = true := by
  unfold locate at found
  split at found
  · contradiction
  · split at found
    · contradiction
    · split at found
      · contradiction
      · next fits => simpa using fits

/-- A path that finds what its components find is read as they are. -/
theorem read_eq_readAt {path : Path} (same : disk.locate path = disk.walk path.components) :
    disk.read path = disk.readAt path.components := by
  rw [read, same]
  rfl

/-- A path that can be read is read as its components are. -/
theorem read_eq_readAt_of_ok {path : Path} {text : String} (read : disk.read path = .ok text) :
    disk.read path = disk.readAt path.components := by
  apply read_eq_readAt
  cases found : disk.locate path with
  | ok location =>
      rw [← found]
      exact locate_eq_walk (fits_of_locate found) (.inr ⟨location, found⟩)
  | error fault =>
      rw [Disk.read, found] at read
      contradiction

end Specimen.Disk
