/-
# Specimen.Proofs.Disk.Listing — the files that are found below a path.

A file is listed under the path that it was looked for with, and the names that lead on from there.
So two listed paths never have the same components, and each of them leads to the file that its
components stand for.
-/
import Specimen.Proofs.Disk.Walk

namespace Specimen

/-- The path of a location below another path. -/
def Path.joins (path : Path) (names : Location) : Path :=
  names.foldl (fun path name => path.join name.bytes) path

namespace Path

variable {path : Path}

theorem joins_nonempty (nonempty : path.bytes ≠ []) (names : Location) :
    (path.joins names).bytes ≠ [] := by
  induction names generalizing path with
  | nil => exact nonempty
  | cons name names ih => exact ih (join_nonempty nonempty name.bytes)

theorem components_joins (nonempty : path.bytes ≠ []) (names : Location) :
    (path.joins names).components = path.components ++ names.map .name := by
  induction names generalizing path with
  | nil => exact (List.append_nil _).symm
  | cons name names ih =>
      have others := ih (join_nonempty nonempty name.bytes)
      rw [components_join nonempty, List.append_assoc] at others
      exact others

theorem isPlain_joins (nonempty : path.bytes ≠ []) {names : Location} (more : names ≠ []) :
    (path.joins names).isPlain = true := by
  obtain ⟨front, last, rfl⟩ := (List.eq_nil_or_concat names).resolve_left more
  have joined : path.joins (front.concat last) = (path.joins front).join last.bytes := by
    simp [joins]
  rw [joined]
  exact isPlain_join (joins_nonempty nonempty front) last

end Path

namespace Disk

variable {disk : Disk} {path : Path}

theorem relative?_eq_some_iff {location other names : Location} :
    relative? location other = some names ↔ other = location ++ names := by
  unfold relative?
  induction location generalizing other with
  | nil =>
      rw [List.isPrefixOf?, List.nil_append]
      exact Option.some_inj
  | cons name location ih =>
      cases other with
      | nil => simp [List.isPrefixOf?]
      | cons other rest =>
          rw [List.isPrefixOf?, List.cons_append, List.cons.injEq]
          by_cases same : name = other
          · rw [if_pos (by simpa using same), ih, and_iff_right same.symm]
          · rw [if_neg (by simpa using same)]
            simp [Ne.symm same]

theorem joined?_eq_some_iff {location held : Location} {entry : Entry} {found : Path} :
    joined? path location (held, entry) = some found ↔
      ∃ contents names, entry = .file contents ∧ held = location ++ names ∧
        path.joins names = found := by
  cases entry with
  | file contents => simp [joined?, relative?_eq_some_iff, Path.joins]
  | directory => simp [joined?]
  | special reading => simp [joined?]

theorem nonempty_of_locate {location : Location} (found : disk.locate path = .ok location) :
    path.bytes ≠ [] := by
  intro empty
  unfold locate at found
  rw [if_pos empty] at found
  split at found <;> contradiction

/-- Where the files of a listing come from. -/
theorem exists_of_mem_filesBelow {found : Path} (member : found ∈ disk.filesBelow path) :
    ∃ location names, disk.locate path = .ok location ∧ path.joins names = found ∧
      fits found = true := by
  unfold filesBelow at member
  split at member
  · next location place =>
    obtain ⟨listed, fits⟩ := List.mem_filter.mp member
    obtain ⟨⟨held, entry⟩, -, joined⟩ := List.mem_filterMap.mp listed
    obtain ⟨contents, names, -, -, same⟩ := joined?_eq_some_iff.mp joined
    exact ⟨location, names, place, same, fits⟩
  · cases member

/-- A listed file is found where its components lead. -/
theorem locate_of_mem_filesBelow {found : Path} (member : found ∈ disk.filesBelow path) :
    disk.locate found = disk.walk found.components := by
  obtain ⟨location, names, place, rfl, fits⟩ := exists_of_mem_filesBelow member
  by_cases more : names = []
  · subst more
    exact locate_eq_walk fits (.inr ⟨_, place⟩)
  · exact locate_eq_walk fits (.inl (Path.isPlain_joins (nonempty_of_locate place) more))

/-- No file is listed twice, whatever the spelling. -/
theorem nodup_filesBelow (disk : Disk) (path : Path) :
    ((disk.filesBelow path).map Path.components).Nodup := by
  unfold filesBelow
  split
  · next location place =>
    have nonempty := nonempty_of_locate place
    refine List.Nodup.sublist (List.filter_sublist.map _) ?_
    have distinct := disk.distinct
    rw [List.Nodup, List.pairwise_map] at distinct ⊢
    apply List.Pairwise.filterMap _ _ distinct
    rintro ⟨held, entry⟩ ⟨held', entry'⟩ differ found joined found' joined' same
    obtain ⟨-, names, -, rfl, rfl⟩ := joined?_eq_some_iff.mp joined
    obtain ⟨-, names', -, rfl, rfl⟩ := joined?_eq_some_iff.mp joined'
    rw [Path.components_joins nonempty, Path.components_joins nonempty,
      List.append_cancel_left_eq] at same
    have injective : Function.Injective Component.name := fun a b => Component.name.inj
    exact differ (congrArg (location ++ ·) (injective.list_map same))
  · exact List.nodup_nil

end Disk

end Specimen
