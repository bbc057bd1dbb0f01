/-
# Specimen.Proofs.Disk.Tree — disks that are directory trees.

A disk finds its files and directories by location, and nothing in that keeps a file from standing
below another file.  A disk is a tree if everything on it stands in a directory and its working
directory is there.  Storing and removing files keep it so, and the empty disk is a tree; so every
disk that is made by storing and removing files is one.
-/
import Mathlib.Data.List.Induction
import Specimen.Disk

namespace Specimen.Disk

variable {disk : Disk} {location other : Location} {entry : Entry}

/-! ## Locations -/

@[simp]
theorem entry?_nil (disk : Disk) : disk.entry? [] = some .directory := if_pos rfl

theorem entry?_of_ne_nil (below : location ≠ []) :
    disk.entry? location = disk.entries.lookup location := if_neg below

/-- What is listed is found. -/
theorem entry?_eq_some_iff (below : location ≠ []) :
    disk.entry? location = some entry ↔ (location, entry) ∈ disk.entries := by
  rw [entry?_of_ne_nil below, List.lookup_eq_some_iff]
  constructor
  · rintro ⟨before, after, shape, -⟩
    rw [shape]
    exact List.mem_append_right before List.mem_cons_self
  · intro member
    obtain ⟨before, after, shape⟩ := List.append_of_mem member
    have distinct := disk.distinct
    rw [shape, List.map_append, List.map_cons] at distinct
    refine ⟨before, after, shape, fun held earlier => ?_⟩
    have apart : held.1 ≠ location :=
      (List.nodup_append.mp distinct).2.2 _ (List.mem_map_of_mem earlier) _ List.mem_cons_self
    simpa using apart.symm

/-- Removing a key from a list of pairs. -/
theorem lookup_filter_ne (held : List (Location × Entry)) (location other : Location) :
    (held.filter fun pair => pair.1 ≠ location).lookup other =
      if other = location then none else held.lookup other := by
  induction held with
  | nil => simp
  | cons pair held ih => grind

theorem entry?_insert (below : location ≠ []) (other : Location) :
    Disk.entry? (disk.insert location entry) other =
      if other = location then some entry else disk.entry? other := by
  by_cases top : other = []
  · subst top
    rw [if_neg below.symm, entry?_nil, entry?_nil]
  · rw [entry?_of_ne_nil top, entry?_of_ne_nil top, insert, List.lookup_cons, lookup_filter_ne]
    by_cases same : other = location
    · simp [same]
    · rw [if_neg same, if_neg same, beq_false_of_ne same]

theorem entry?_erase (below : location ≠ []) (other : Location) :
    Disk.entry? (disk.erase location) other =
      if other = location then none else disk.entry? other := by
  by_cases top : other = []
  · subst top
    rw [if_neg below.symm, entry?_nil, entry?_nil]
  · rw [entry?_of_ne_nil top, entry?_of_ne_nil top, erase, lookup_filter_ne]

/-! ## Trees -/

/-- Everything on the disk stands in a directory, and the working directory is one. -/
structure IsTree (disk : Disk) : Prop where
  stands : ∀ held ∈ disk.entries, held.1 ≠ [] ∧ disk.entry? held.1.dropLast = some .directory
  working : disk.entry? disk.working = some .directory

theorem isTree_empty : empty.IsTree := ⟨List.forall_mem_singleton.mpr ⟨by decide, rfl⟩, rfl⟩

/-- Whatever a tree holds stands in a directory of it. -/
theorem IsTree.parent (tree : disk.IsTree) (found : disk.entry? location = some entry) :
    disk.entry? location.dropLast = some .directory := by
  by_cases top : location = []
  · rw [top]
    rfl
  · exact (tree.stands _ ((entry?_eq_some_iff top).mp found)).2

/-- Everything on the way to what a tree holds is a directory. -/
theorem IsTree.directory_of_append (tree : disk.IsTree) {names : Location} (more : names ≠ [])
    (found : disk.entry? (location ++ names) = some entry) :
    disk.entry? location = some .directory := by
  induction names using List.reverseRecOn generalizing entry with
  | nil => exact absurd rfl more
  | append_singleton names last ih =>
      have parent := tree.parent found
      rw [← List.append_assoc, List.dropLast_concat] at parent
      by_cases none : names = []
      · rwa [none, List.append_nil] at parent
      · exact ih none parent

/-- A walk starts in a directory. -/
theorem IsTree.start (tree : disk.IsTree) (path : Path) :
    disk.entry? (disk.start path) = some .directory := by
  unfold Disk.start
  split
  · exact entry?_nil disk
  · exact tree.working

/-- A tree stays one if something is put into a directory, as long as it does not take the place of
a directory that may hold something, unless by a directory. -/
theorem IsTree.insert (tree : disk.IsTree) {name : FileName}
    (parent : disk.entry? location = some .directory)
    (free : disk.entry? (location ++ [name]) = some .directory → entry = .directory) :
    (disk.insert (location ++ [name]) entry).IsTree := by
  have below : location ++ [name] ≠ [] := by simp
  -- what was a directory still is
  have kept : ∀ other, disk.entry? other = some .directory →
      Disk.entry? (disk.insert (location ++ [name]) entry) other = some .directory := by
    intro other directory
    rw [entry?_insert below]
    split
    · next same => rw [free (same ▸ directory)]
    · exact directory
  refine ⟨fun held member => ?_, kept _ tree.working⟩
  rcases List.mem_cons.mp member with rfl | member
  · refine ⟨below, kept _ ?_⟩
    rwa [List.dropLast_concat]
  · obtain ⟨proper, directory⟩ := tree.stands held (List.mem_filter.mp member).1
    exact ⟨proper, kept _ directory⟩

/-- A tree stays one if something that is no directory is removed from it. -/
theorem IsTree.erase (tree : disk.IsTree) (other : disk.entry? location ≠ some .directory) :
    (disk.erase location).IsTree := by
  have below : location ≠ [] := by
    rintro rfl
    exact other (entry?_nil disk)
  have kept : ∀ place, disk.entry? place = some .directory →
      Disk.entry? (disk.erase location) place = some .directory := by
    intro place directory
    rw [entry?_erase below, if_neg, directory]
    rintro rfl
    exact other directory
  refine ⟨fun held member => ?_, kept _ tree.working⟩
  obtain ⟨proper, directory⟩ := tree.stands held (List.mem_filter.mp member).1
  exact ⟨proper, kept _ directory⟩

/-- The directories of a path are made one below the other. -/
theorem IsTree.makeDirectories {made : Disk} {pieces : List Bytes} (tree : disk.IsTree)
    (here : disk.entry? location = some .directory)
    (done : disk.makeDirectories location pieces = some (made, other)) :
    made.IsTree ∧ made.entry? other = some .directory := by
  induction pieces generalizing disk location with
  | nil =>
      cases done
      exact ⟨tree, here⟩
  | cons piece pieces ih =>
      rw [Disk.makeDirectories] at done
      split at done
      · exact ih tree here done
      · next name _ =>
        split at done
        · refine ih (tree.insert here fun _ => rfl) ?_ done
          rw [entry?_insert (by simp), if_pos rfl]
        · next directory => exact ih tree directory done
        · cases done
      · exact ih tree (tree.parent here) done

/-- Storing a file keeps a tree a tree. -/
theorem IsTree.put (tree : disk.IsTree) (path : Path) (contents : ByteArray) :
    (disk.put path contents).IsTree := by
  unfold Disk.put
  split
  · exact tree
  · next made location done =>
    obtain ⟨tree', here⟩ := tree.makeDirectories (tree.start path) done
    split
    · next name _ =>
      split
      · exact tree
      · exact tree
      · next other _ => exact tree'.insert here fun directory => absurd directory other
    · exact tree'

/-- Removing a file keeps a tree a tree. -/
theorem IsTree.remove (tree : disk.IsTree) (path : Path) : (disk.remove path).IsTree := by
  unfold Disk.remove
  split
  · exact tree
  · split
    · exact tree
    · exact tree
    · next other found =>
      refine tree.erase fun directory => other ?_
      exact Option.some.inj (found.symm.trans directory)

end Specimen.Disk
