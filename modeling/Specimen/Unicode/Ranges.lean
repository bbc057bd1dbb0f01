/-
# Specimen.Unicode.Ranges — sets of code points.

A property of Unicode is given as data: the inclusive ranges of code points that have it, in
ascending order.  Membership reads the table from its low end and stops at the first range that
lies above the code point, so a character of ordinary text is settled within the first entries.
-/

namespace Specimen.Unicode

/-- A set of code points: inclusive ranges, ascending and disjoint. -/
structure Ranges where
  /-- The least and the greatest code point of each range. -/
  bounds : List (Nat × Nat)

namespace Ranges

/-- Whether one of the ascending ranges holds the number. -/
def holds : List (Nat × Nat) → Nat → Bool
  | [], _ => false
  | (least, greatest) :: rest, n =>
    if n < least then false else if n ≤ greatest then true else holds rest n

/-- Whether the set contains the code point. -/
def contains (r : Ranges) (n : Nat) : Bool := holds r.bounds n

end Ranges

end Specimen.Unicode
