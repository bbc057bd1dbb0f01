/-
# Specimen.Proofs.Unicode.Class — classes of characters that have nothing in common.

A table of ranges can be spelled out as the list of its code points.  White space has few of them,
so that what is to be said of all white space can be checked one code point after the other.
-/
import Specimen.Unicode.Class

namespace Specimen.Unicode

/-- The code points of a table, one by one. -/
def Ranges.points (r : Ranges) : List Nat :=
  r.bounds.flatMap fun range => List.range' range.1 (range.2 + 1 - range.1)

theorem Ranges.exists_of_holds {bounds : List (Nat × Nat)} {n : Nat} (h : holds bounds n = true) :
    ∃ range ∈ bounds, range.1 ≤ n ∧ n ≤ range.2 := by
  induction bounds with
  | nil => contradiction
  | cons range rest ih =>
      rw [holds] at h
      split at h
      · contradiction
      · next above =>
        split at h
        · next below => exact ⟨range, List.mem_cons_self, Nat.le_of_not_lt above, below⟩
        · obtain ⟨found, member, bounds⟩ := ih h
          exact ⟨found, List.mem_cons_of_mem _ member, bounds⟩

theorem Ranges.mem_points {r : Ranges} {n : Nat} (h : r.contains n = true) : n ∈ r.points := by
  obtain ⟨range, member, least, greatest⟩ := exists_of_holds h
  refine List.mem_flatMap.mpr ⟨range, member, List.mem_range'_1.mpr ⟨least, ?_⟩⟩
  omega

/-- White space is neither a letter nor a number. -/
theorem isAlphanumeric_of_isWhiteSpace {c : Char} (h : isWhiteSpace c = true) :
    isAlphanumeric c = false := by
  have apart : ∀ n ∈ whiteSpace.points,
      (alphabetic.contains n || decimalDigit.contains n || otherNumber.contains n) = false := by
    decide +kernel
  exact apart c.toNat (Ranges.mem_points h)

end Specimen.Unicode
