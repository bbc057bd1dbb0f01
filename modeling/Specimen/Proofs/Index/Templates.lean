/-
# Specimen.Proofs.Index.Templates — which files are found as templates.

A template is a file at or below a root, under the path that joining the names on its way to the root
gives.  It counts if no component of that path is the name of a directory that is left out, and if
the extension is one of those in the settings.  The listing holds every such path that is short
enough to be followed, once, in the order of components.

The bound on the length is no matter of templates: a file whose path is longer cannot be seen from
the root at all, though it may be found from a directory further down.
-/
import Specimen.Proofs.Disk.Tree
import Specimen.Proofs.Index.Build

namespace Specimen

/-! ## Extensions -/

/-- The extension of a name is what stands behind its last dot, if the name does not begin with that
dot. -/
theorem Path.nameExtension?_eq_some_iff {name extension : Bytes} :
    nameExtension? name = some extension ↔
      ∃ front, name = front ++ dot :: extension ∧ front ≠ [] ∧ dot ∉ extension := by
  constructor
  · intro found
    have whole : name = (name.reverse.dropWhile (· ≠ dot)).reverse ++
        (name.reverse.takeWhile (· ≠ dot)).reverse := by
      rw [← List.reverse_append, List.takeWhile_append_dropWhile, List.reverse_reverse]
    have noDot : dot ∉ (name.reverse.takeWhile (· ≠ dot)).reverse := by
      intro member
      simpa using List.mem_takeWhile_imp (List.mem_reverse.mp member)
    unfold nameExtension? at found
    split at found
    · cases found
    · cases found
    · next more one =>
      obtain rfl := Option.some.inj found
      cases rest : name.reverse.dropWhile (· ≠ dot) with
      | nil => exact absurd rest more
      | cons first back =>
          obtain rfl : first = dot := by
            have stops := List.head?_dropWhile_not (· ≠ dot) name.reverse
            rw [rest] at stops
            simpa using stops
          refine ⟨back.reverse, ?_, ?_, noDot⟩
          · rw [rest, List.reverse_cons, List.append_assoc] at whole
            exact whole
          · intro none
            obtain rfl := List.reverse_eq_nil_iff.mp none
            exact one _ rest
  · rintro ⟨front, rfl, more, noDot⟩
    have reversed : (front ++ dot :: extension).reverse =
        extension.reverse ++ dot :: front.reverse := by simp
    have inside : ∀ c ∈ extension.reverse, decide (c ≠ dot) = true := by
      intro c member
      simpa using ne_of_mem_of_not_mem (List.mem_reverse.mp member) noDot
    obtain ⟨c, rest, shape⟩ := List.exists_cons_of_ne_nil (List.reverse_ne_nil_iff.mpr more)
    unfold nameExtension?
    rw [reversed, List.dropWhile_append_of_pos inside, List.takeWhile_append_of_pos inside, shape]
    simp

/-- A file counts as a template if its name has one of the extensions of the settings. -/
theorem Config.matchesExtension_iff {config : Config} {path : Path} :
    config.matchesExtension path = true ↔ ∃ name front, ∃ extension ∈ config.extensions,
      path.components.getLast? = some (.name name) ∧
        name.bytes = front ++ dot :: Text.bytes extension ∧ front ≠ [] ∧
          dot ∉ Text.bytes extension := by
  have last : ∀ {extension}, path.extension? = some extension ↔
      ∃ name, path.components.getLast? = some (.name name) ∧
        Path.nameExtension? name.bytes = some extension := by
    intro extension
    unfold Path.extension?
    split
    · next name found => simp [found]
    · next other =>
      constructor
      · nofun
      · rintro ⟨name, found, -⟩
        exact absurd found (other name)
  constructor
  · intro accepted
    unfold matchesExtension at accepted
    split at accepted
    · next extension found =>
      obtain ⟨bytes, named, decoded⟩ := Option.bind_eq_some_iff.mp found
      obtain rfl := Text.text?_eq_some_iff.mp decoded
      obtain ⟨name, isLast, named⟩ := last.mp named
      obtain ⟨front, shape, more, noDot⟩ := Path.nameExtension?_eq_some_iff.mp named
      exact ⟨name, front, extension, by simpa using accepted, isLast, shape, more, noDot⟩
    · cases accepted
  · rintro ⟨name, front, extension, listed, isLast, shape, more, noDot⟩
    have named := Path.nameExtension?_eq_some_iff.mpr ⟨front, shape, more, noDot⟩
    rw [matchesExtension, last.mpr ⟨name, isLast, named⟩, Option.bind_some, Text.text?_bytes]
    simpa using listed

theorem Path.isIgnored_eq_false_iff {path : Path} :
    path.isIgnored = false ↔
      ∀ name, .name name ∈ path.components →
        name.bytes ∉ (["node_modules", ".git", "target"] : List Bytes) := by
  have special : [] ∉ ignoredNames.map Text.bytes := by decide +kernel
  rw [isIgnored, List.any_eq_false]
  constructor
  · intro none name member listed
    exact none _ member (List.contains_iff_mem.mpr listed)
  · intro visible component member listed
    have listed := List.contains_iff_mem.mp listed
    cases component with
    | name name => exact visible name member listed
    | root | current | parent => exact special listed

/-! ## Files below a root -/

variable {disk : Disk} {config : Config} {root path : Path}

namespace Disk

theorem mem_filesBelow_iff (tree : disk.IsTree) :
    path ∈ disk.filesBelow root ↔
      (∃ location names contents, disk.locate root = .ok location ∧
        disk.entry? (location ++ names) = some (.file contents) ∧ path = root.joins names) ∧
      path.bytes.length ≤ 4095 := by
  have held : ∀ {location contents}, (location, Entry.file contents) ∈ disk.entries ↔
      disk.entry? location = some (.file contents) := by
    intro location contents
    by_cases top : location = []
    · subst top
      simp only [entry?_nil, Option.some.injEq, reduceCtorEq, iff_false]
      exact fun member => (tree.stands _ member).1 rfl
    · exact (entry?_eq_some_iff top).symm
  constructor
  · intro member
    unfold filesBelow at member
    split at member
    · next location place =>
      obtain ⟨listed, short⟩ := List.mem_filter.mp member
      obtain ⟨⟨other, entry⟩, inside, joined⟩ := List.mem_filterMap.mp listed
      obtain ⟨contents, names, rfl, rfl, rfl⟩ := joined?_eq_some_iff.mp joined
      exact ⟨⟨location, names, contents, place, held.mp inside, rfl⟩, of_decide_eq_true short⟩
    · cases member
  · rintro ⟨⟨location, names, contents, place, file, rfl⟩, short⟩
    unfold filesBelow
    rw [place]
    refine List.mem_filter.mpr ⟨List.mem_filterMap.mpr ⟨_, held.mpr file, ?_⟩, decide_eq_true short⟩
    exact joined?_eq_some_iff.mpr ⟨contents, names, rfl, rfl, rfl⟩

end Disk

/-- Different names lead to different paths. -/
theorem Path.joins_injective (nonempty : root.bytes ≠ []) {names names' : Location}
    (same : root.joins names = root.joins names') : names = names' := by
  have components := congrArg Path.components same
  rw [components_joins nonempty, components_joins nonempty, List.append_cancel_left_eq]
    at components
  have injective : Function.Injective Component.name := fun a b => Component.name.inj
  exact injective.list_map components

/-! ## Templates -/

/-- The path is that of a template at or below the root. -/
structure IsTemplate (disk : Disk) (config : Config) (root path : Path) : Prop where
  /-- It is the root joined with the names that lead from there to a regular file, which may be the
  root itself. -/
  file : ∃ location names contents, disk.locate root = .ok location ∧
    disk.entry? (location ++ names) = some (.file contents) ∧ path = root.joins names
  /-- It leads through none of the directories that are left out, nor is it named like one. -/
  visible : ∀ name, .name name ∈ path.components →
    name.bytes ∉ (["node_modules", ".git", "target"] : List Bytes)
  /-- The file has one of the extensions.  A dot at the front of its name begins none. -/
  extension : ∃ name front, ∃ extension ∈ config.extensions,
    path.components.getLast? = some (.name name) ∧
      name.bytes = front ++ dot :: Text.bytes extension ∧ front ≠ [] ∧
        dot ∉ Text.bytes extension

theorem mem_findTemplates_iff (tree : disk.IsTree) :
    path ∈ findTemplates disk.source config root ↔
      IsTemplate disk config root path ∧ path.bytes.length ≤ 4095 := by
  have listed : path ∈ findTemplates disk.source config root ↔
      path ∈ disk.filesBelow root ∧ path.isIgnored = false ∧
        config.matchesExtension path = true := by
    rw [findTemplates, List.mem_mergeSort, List.mem_filter, Bool.and_eq_true, Bool.not_eq_true']
    rfl
  rw [listed, Disk.mem_filesBelow_iff tree, Path.isIgnored_eq_false_iff,
    Config.matchesExtension_iff]
  constructor
  · rintro ⟨⟨file, short⟩, visible, extension⟩
    exact ⟨⟨file, visible, extension⟩, short⟩
  · rintro ⟨⟨file, visible, extension⟩, short⟩
    exact ⟨⟨file, short⟩, visible, extension⟩

/-- The paths are the templates at or below the root. -/
structure ListsTemplates (disk : Disk) (config : Config) (root : Path) (paths : List Path) :
    Prop where
  /-- They stand in the order of components, none of them twice. -/
  increasing : paths.Pairwise fun a b => compare a.components b.components = .lt
  mem_iff : ∀ path, path ∈ paths ↔
    IsTemplate disk config root path ∧ path.bytes.length ≤ 4095
  /-- A directory is not listed, however it is named. -/
  directory : ∀ location names, disk.locate root = .ok location →
    disk.entry? (location ++ names) = some .directory → root.joins names ∉ paths
  /-- A root that leads nowhere has no templates. -/
  missing : ∀ fault, disk.locate root = .error fault → paths = []
  unnamed : root.bytes = [] → paths = []
  /-- Neither has an empty directory. -/
  empty : ∀ location, disk.locate root = .ok location →
    disk.entry? location = some .directory →
      (∀ name, disk.entry? (location ++ [name]) = none) → paths = []

theorem increasing_findTemplates (disk : Disk) (config : Config) (root : Path) :
    (findTemplates disk.source config root).Pairwise fun a b =>
      compare a.components b.components = .lt := by
  have sorted := pairwise_findTemplates disk.source config root
  have distinct : ((findTemplates disk.source config root).map Path.components).Nodup :=
    nodup_findTemplates (disk.nodup_filesBelow root) config
  rw [List.Nodup, List.pairwise_map] at distinct
  refine (sorted.and distinct).imp ?_
  rintro a b ⟨before, differ⟩
  unfold Path.precedes at before
  cases order : compare a.components b.components with
  | lt => rfl
  | eq => exact absurd (Std.LawfulEqOrd.eq_of_compare order) differ
  | gt => simp [order] at before

/-- The templates of a directory tree are the files that qualify and can be seen from the root. -/
theorem findTemplates_lists (tree : disk.IsTree) (config : Config) (root : Path) :
    ListsTemplates disk config root (findTemplates disk.source config root) := by
  have memIff : ∀ path, path ∈ findTemplates disk.source config root ↔
      IsTemplate disk config root path ∧ path.bytes.length ≤ 4095 :=
    fun _ => mem_findTemplates_iff tree
  have missing : ∀ fault, disk.locate root = .error fault →
      findTemplates disk.source config root = [] := by
    intro fault lost
    rw [List.eq_nil_iff_forall_not_mem]
    intro path member
    obtain ⟨location, names, contents, place, -⟩ := ((memIff path).mp member).1.file
    rw [lost] at place
    cases place
  refine ⟨increasing_findTemplates disk config root, memIff, ?_, missing, ?_, ?_⟩
  · intro location names place directory member
    obtain ⟨location', names', contents, place', file, same⟩ := ((memIff _).mp member).1.file
    obtain rfl : location = location' := by
      rw [place] at place'
      cases place'
      rfl
    obtain rfl := Path.joins_injective (Disk.nonempty_of_locate place) same
    rw [directory] at file
    cases file
  · intro unnamed
    apply missing .notFound
    rw [Disk.locate, unnamed, if_neg (by simp), if_pos rfl]
  · intro location place directory hollow
    rw [List.eq_nil_iff_forall_not_mem]
    intro path member
    obtain ⟨location', names, contents, place', file, -⟩ := ((memIff path).mp member).1.file
    obtain rfl : location = location' := by
      rw [place] at place'
      cases place'
      rfl
    cases names with
    | nil =>
        rw [List.append_nil, directory] at file
        cases file
    | cons name names =>
        -- the first name on the way to the file would stand in the directory
        have first : (disk.entry? (location ++ [name])).isSome := by
          rw [List.append_cons] at file
          by_cases more : names = []
          · rw [more, List.append_nil] at file
            rw [file]
            rfl
          · rw [tree.directory_of_append more file]
            rfl
        rw [hollow name] at first
        cases first

/-- A template beside a directory that is left out, a directory with the name of a template, and in
it a file whose only dot begins its name. -/
theorem findTemplates_lists_site :
    let disk := ((Disk.empty.put ⟨"site/a.b.slim"⟩ "p".toUTF8).put
      ⟨"site/node_modules/c.slim"⟩ "p".toUTF8).put ⟨"site/d.slim/.slim"⟩ "p".toUTF8
    disk.IsTree ∧ ⟨"site/a.b.slim"⟩ ∈ findTemplates disk.source {} ⟨"site"⟩ ∧
      ListsTemplates disk {} ⟨"site"⟩ (findTemplates disk.source {} ⟨"site"⟩) := by
  intro disk
  have tree : disk.IsTree := ((Disk.isTree_empty.put _ _).put _ _).put _ _
  refine ⟨tree, ?_, findTemplates_lists tree {} ⟨"site"⟩⟩
  rw [findTemplates, List.mem_mergeSort]
  decide +kernel

/-! ## Long paths -/

/-- A path that stays where it starts. -/
def dotted (steps : Nat) : Path := ⟨(List.replicate steps [dot, slash]).flatten⟩

theorem length_dotted (steps : Nat) : (dotted steps).bytes.length = 2 * steps := by
  simp [dotted, Nat.mul_comm]

theorem dotted_nonempty (steps : Nat) : (dotted (steps + 1)).bytes ≠ [] :=
  List.cons_ne_nil _ _

theorem pieces_dotted (steps : Nat) :
    (dotted (steps + 1)).pieces = [dot] :: (List.replicate steps [dot] ++ [[]]) := by
  have cut := splitOn_dots (steps + 1) []
  rw [List.append_nil] at cut
  rw [Path.pieces, dotted, cut]
  rfl

/-- Dots and the end of the path are no components, and they lead nowhere else. -/
theorem ofPiece_of_mem_dots {steps : Nat} :
    ∀ piece ∈ List.replicate steps [dot] ++ [[]], Component.ofPiece piece = none := by
  rw [List.forall_mem_append]
  refine ⟨fun piece member => ?_, List.forall_mem_singleton.mpr (by decide)⟩
  rw [List.eq_of_mem_replicate member]
  decide

theorem components_dotted (steps : Nat) : (dotted (steps + 1)).components = [.current] := by
  rw [Path.components_of_pieces (pieces_dotted steps) (dotted_nonempty steps),
    List.filterMap_eq_nil_iff.mpr ofPiece_of_mem_dots]
  rfl

namespace Disk

theorem foldlM_step_of_directory {location : Location}
    (here : disk.entry? location = some .directory) {ps : List Bytes}
    (none : ∀ piece ∈ ps, Component.ofPiece piece = .none) :
    ps.foldlM disk.step location = .ok location := by
  induction ps with
  | nil => rfl
  | cons piece ps ih =>
      obtain ⟨first, others⟩ := List.forall_mem_cons.mp none
      rw [List.foldlM_cons, step_of_directory first here]
      exact ih others

theorem locate_dotted (tree : disk.IsTree) {steps : Nat} (short : 2 * (steps + 1) ≤ pathLimit) :
    disk.locate (dotted (steps + 1)) = .ok disk.working := by
  have clean : 0 ∉ (dotted (steps + 1)).bytes := by simp [dotted, dot, slash]
  have isShort : fits (dotted (steps + 1)) = true := by
    rw [fits, length_dotted]
    exact decide_eq_true short
  have other : dot ≠ slash := by decide
  have relative : disk.start (dotted (steps + 1)) = disk.working :=
    if_neg fun slashed => other (Option.some.inj slashed)
  rw [locate_eq_foldlM clean (dotted_nonempty steps) isShort, relative, pieces_dotted]
  exact foldlM_step_of_directory tree.working
    (List.forall_mem_cons.mpr ⟨by decide, ofPiece_of_mem_dots⟩)

end Disk

/-- A template that stands in the working directory. -/
def nearName : FileName := ⟨"bbb.slim", by decide +kernel⟩

/-- A disk with nothing but this template. -/
def nearDisk : Disk := Disk.empty.insert [Disk.workName, nearName] (.file "p\n".toUTF8)

theorem isTree_nearDisk : nearDisk.IsTree := by
  have working : Disk.empty.entry? [Disk.workName] = some .directory := rfl
  refine Disk.isTree_empty.insert working fun taken => ?_
  cases taken

/-- The path of the template from a dotted root. -/
def nearPath (steps : Nat) : Path := (dotted (steps + 1)).join nearName.bytes

theorem components_nearPath (steps : Nat) :
    (nearPath steps).components = [.current, .name nearName] := by
  rw [nearPath, Path.components_join (dotted_nonempty steps), components_dotted]
  rfl

theorem length_nearPath (steps : Nat) :
    (nearPath steps).bytes.length = 2 * (steps + 1) + 8 := by
  have ends : (dotted (steps + 1)).bytes.getLast? = some slash := by
    rw [dotted, List.replicate_succ', List.flatten_concat]
    exact List.getLast?_append_of_ne_nil _ (by simp)
  rw [nearPath, Path.join, if_pos (.inr ends), List.length_append, length_dotted]
  rfl

theorem isTemplate_nearPath {steps : Nat} (short : 2 * (steps + 1) ≤ Disk.pathLimit) :
    IsTemplate nearDisk {} (dotted (steps + 1)) (nearPath steps) where
  file := by
    refine ⟨_, [nearName], "p\n".toUTF8, Disk.locate_dotted isTree_nearDisk short, ?_, rfl⟩
    rw [nearDisk]
    exact (Disk.entry?_insert (by simp) _).trans (if_pos rfl)
  visible name member := by
    rw [components_nearPath] at member
    obtain rfl : name = nearName := by simpa using member
    decide +kernel
  extension := by
    refine ⟨nearName, "bbb", "slim", by decide, ?_, by decide +kernel, by decide +kernel,
      by decide +kernel⟩
    rw [components_nearPath]
    rfl

/-- Without the bound on the length the listing would have to hold more: from a root that takes 4088
bytes, a template that stands right there is not found, since its path would take 4096. -/
theorem near_template_unlisted :
    nearDisk.IsTree ∧ IsTemplate nearDisk {} (dotted 2044) (nearPath 2043) ∧
      nearPath 2043 ∉ findTemplates nearDisk.source {} (dotted 2044) := by
  refine ⟨isTree_nearDisk, isTemplate_nearPath (by decide), fun member => ?_⟩
  have short := ((mem_findTemplates_iff isTree_nearDisk).mp member).2
  rw [length_nearPath] at short
  omega

end Specimen
