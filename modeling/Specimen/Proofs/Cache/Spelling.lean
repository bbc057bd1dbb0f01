/-
# Specimen.Proofs.Cache.Spelling — what the spellings of one key are answered.

A cache knows a template by the components of its path, while the disk follows the path as it is
written.  So a template that one spelling has found answers for all others of the same components,
also for those that would find nothing themselves.  `firstAnswer_congr` says which spellings get the
same answer from a cache that keeps nothing yet, and how the others fail: a slash behind something
that is no directory, or too long a path.  `slash_behind_file` has one of each.
-/
import Specimen.Proofs.Disk.Spelling
import Specimen.Proofs.Session.Independence

namespace Specimen

open Template

/-- The error, about another path. -/
def ExtractError.withPath (path : Path) : ExtractError → ExtractError
  | .read _ fault => .read path fault
  | .parse _ fault => .parse path fault
  | .callSiteNotFound _ method argument => .callSiteNotFound path method argument

/-- What a cache that keeps nothing answers to a request for a template on the disk. -/
def Disk.firstAnswer (disk : Disk) (path : Path) : Except ExtractError Node :=
  ((Cache.template disk.source path).run.run {}).1

variable {disk : Disk} {path other : Path}

theorem firstAnswer_eq (disk : Disk) (path : Path) :
    disk.firstAnswer path = parseFile disk.source path := by
  have first : disk.firstAnswer path = (Lookup.mk disk.source path {}).answer := rfl
  rw [first]
  cases (Lookup.mk disk.source path {}).ends with
  | kept found outcome => cases found
  | parsed _ parsed outcome => rw [Lookup.answer, outcome, parsed]
  | failed _ failed outcome => rw [Lookup.answer, outcome, failed]

theorem firstAnswer_of_unread {fault : ReadError} (unread : disk.read path = .error fault) :
    disk.firstAnswer path = .error (.read path fault) := by
  have unread' : disk.source.read path = .error fault := unread
  have text : readText disk.source path = .error (.read path fault) := by
    rw [readText, unread']
    rfl
  rw [firstAnswer_eq, parseFile, text]

/-- Paths that are read alike get the same answer, each with its own name in it. -/
theorem firstAnswer_of_read_eq (same : disk.read path = disk.read other) :
    disk.firstAnswer other = (disk.firstAnswer path).mapError (.withPath other) := by
  cases read : disk.read other with
  | error fault =>
      rw [firstAnswer_of_unread read, firstAnswer_of_unread (same.trans read)]
      rfl
  | ok text =>
      have text_eq : ∀ spelled, disk.read spelled = .ok text →
          disk.firstAnswer spelled = (parse text).mapError (.parse spelled) := by
        intro spelled read
        have text : readText disk.source spelled = .ok text := readText_eq_ok_iff.mpr read
        rw [firstAnswer_eq, parseFile, text]
      rw [text_eq other read, text_eq path (same.trans read)]
      cases parse text <;> rfl

/-- Two paths with the same components get the same answer if both are short enough or both too
long, unless just one of them ends in a slash or a dot behind one and the other leads to something
that is no directory.  That one fails because it asks for a directory; a path that is too long fails
in any case. -/
theorem firstAnswer_congr (tree : disk.IsTree) (same : path.components = other.components) :
    (Disk.fits path = Disk.fits other →
      path.isPlain = other.isPlain ∨ ¬ disk.LeadsToOther path ∧ ¬ disk.LeadsToOther other →
      disk.firstAnswer other = (disk.firstAnswer path).mapError (.withPath other)) ∧
    (Disk.fits other = true → disk.LeadsToOther path → other.isPlain = false →
      disk.firstAnswer other = .error (.read other .notDirectory)) ∧
    (Disk.fits other = false → ∃ fault, disk.firstAnswer other = .error (.read other fault)) := by
  refine ⟨fun size alike => ?_, fun short leads notPlain => ?_, fun long => ?_⟩
  · exact firstAnswer_of_read_eq (tree.read_congr same size alike)
  · exact firstAnswer_of_unread (Disk.read_of_not_plain leads same short notPlain)
  · exact ⟨_, firstAnswer_of_unread (Disk.read_of_not_fits long)⟩

-- a device that reads as an empty file
example :
    let disk := Disk.empty.insert [⟨"null", by decide +kernel⟩] (.special (.ok .empty))
    disk.firstAnswer ⟨"/null"⟩ = .ok (.container []) ∧
      disk.firstAnswer ⟨"/null/"⟩ = .error (.read ⟨"/null/"⟩ .notDirectory) := by
  decide +kernel

/-! ## Spellings of the path to one file -/

/-- The path to the file, with needless slashes and dots in between. -/
def doubled : Path := ⟨"d//.//a.slim"⟩

/-- The path to the file, with a slash behind it. -/
def slashed : Path := ⟨"d/a.slim/"⟩

open Session

theorem firstAnswer_detour : detourDisk.firstAnswer (detour 0) = .ok detourTree := by
  decide +kernel

theorem isTree_detourDisk : detourDisk.IsTree := Disk.isTree_empty.put _ _

theorem leadsToOther_detour : detourDisk.LeadsToOther (detour 0) := by
  let location : Location :=
    [Disk.workName, ⟨"d", by decide +kernel⟩, ⟨"a.slim", by decide +kernel⟩]
  exact ⟨location, .file "p\n".toUTF8, by decide +kernel, by rfl, nofun⟩

/-- Doubled slashes and dots within the path make no difference, and a slash behind it does. -/
theorem firstAnswer_congr_doubled :
    detourDisk.IsTree ∧ (detour 0).components = doubled.components ∧
      (detour 0).components = slashed.components ∧ detourDisk.firstAnswer doubled = .ok detourTree ∧
      detourDisk.firstAnswer slashed = .error (.read slashed .notDirectory) := by
  have same : (detour 0).components = doubled.components := by decide +kernel
  have same' : (detour 0).components = slashed.components := by decide +kernel
  have size : Disk.fits (detour 0) = Disk.fits doubled := by decide +kernel
  have ends : (detour 0).isPlain = doubled.isPlain := by decide +kernel
  have answer := (firstAnswer_congr isTree_detourDisk same).1 size (.inl ends)
  rw [firstAnswer_detour] at answer
  have refused := (firstAnswer_congr isTree_detourDisk same').2.1 (by decide +kernel)
    leadsToOther_detour (by decide +kernel)
  exact ⟨isTree_detourDisk, same, same', answer, refused⟩

/-- The path to a file is answered with its tree, while the same path with a slash behind it is
refused, and so is one that is too long; both have the same components as the first.  Once the first
has been asked for, the second is answered too. -/
theorem slash_behind_file :
    let after := (Lookup.mk detourDisk.source (detour 0) {}).after
    detourDisk.IsTree ∧ (detour 0).components = slashed.components ∧
      (detour 0).components = (detour 2045).components ∧
      detourDisk.firstAnswer (detour 0) = .ok detourTree ∧
      detourDisk.firstAnswer slashed = .error (.read slashed .notDirectory) ∧
      detourDisk.firstAnswer (detour 2045) = .error (.read (detour 2045) .nameTooLong) ∧
      (Lookup.mk detourDisk.source slashed after).answer = .ok detourTree := by
  intro after
  have long : Disk.pathLimit < (detour 2045).bytes.length := by
    rw [length_detour]
    decide
  refine ⟨isTree_detourDisk, by decide +kernel, (components_detour 2045).symm,
    firstAnswer_detour, by decide +kernel, firstAnswer_of_unread (read_detour_of_long long),
    by decide +kernel⟩

end Specimen
