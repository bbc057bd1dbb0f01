/-
# Specimen.Proofs.Path.Components — what the bytes of a path say about its components.

A path holds more than its components: slashes can be doubled, and dots can stand between them.  The
lemmas here say what the components keep of the bytes: every byte that is no slash and no dot, and
whether there are any at all.  They also say what a name adds that is joined to a path.

A path is plain if it does not end in a slash, nor in a dot behind a slash.  Then its last piece is
one of its components.
-/
import Mathlib.Data.List.Basic
import Specimen.Path

namespace Specimen

open Component

/-! ## Pieces and names -/

theorem isSome_ofPiece {piece : Bytes} (nonempty : piece ≠ []) (noDot : piece ≠ [dot])
    (noSlash : slash ∉ piece) : (ofPiece piece).isSome = true := by
  unfold ofPiece
  split
  · rfl
  · next improper =>
    have parent : piece = [dot, dot] := by simpa [isName, nonempty, noDot, noSlash] using improper
    rw [if_pos parent]
    rfl

namespace FileName

theorem noSlash (name : FileName) : slash ∉ name.bytes := by
  have proper := name.proper
  simp only [isName, Bool.and_eq_true, decide_eq_true_eq] at proper
  exact proper.2

theorem nonempty (name : FileName) : name.bytes ≠ [] := by
  have proper := name.proper
  simp only [isName, Bool.and_eq_true, decide_eq_true_eq] at proper
  exact proper.1.1.1

theorem ne_dot (name : FileName) : name.bytes ≠ [dot] := by
  have proper := name.proper
  simp only [isName, Bool.and_eq_true, decide_eq_true_eq] at proper
  exact proper.1.1.2

@[simp]
theorem ofPiece_bytes (name : FileName) : ofPiece name.bytes = some (.name name) := by
  rw [ofPiece, dif_pos name.proper]

end FileName

/-- The elements of a list, but for the one at which it is split, are those of the parts. -/
theorem mem_splitOn_iff {α : Type} [BEq α] [LawfulBEq α] {sep x : α} {xs : List α} :
    (∃ part ∈ xs.splitOn sep, x ∈ part) ↔ x ∈ xs ∧ x ≠ sep := by
  induction xs with
  | nil => simp
  | cons y xs ih =>
      rw [List.splitOn_cons_eq_if_modifyHead]
      obtain ⟨first, rest, whole⟩ := List.exists_cons_of_ne_nil (List.splitOn_ne_nil sep xs)
      rw [whole] at ih ⊢
      by_cases same : y = sep
      · rw [if_pos (by simpa using same)]
        simp only [List.mem_cons, exists_eq_or_imp, List.not_mem_nil, false_or] at ih ⊢
        grind
      · rw [if_neg (by simpa using same)]
        simp only [List.modifyHead_cons, List.mem_cons, exists_eq_or_imp] at ih ⊢
        grind

/-- Each dot in front is a piece of its own. -/
theorem splitOn_dots (steps : Nat) (rest : Bytes) :
    ((List.replicate steps [dot, slash]).flatten ++ rest).splitOn slash =
      List.replicate steps [dot] ++ rest.splitOn slash := by
  induction steps with
  | zero => rfl
  | succ steps ih =>
      have noSlash : slash ∉ [dot] := by decide
      have split := List.splitOn_append_cons_self_of_not_mem noSlash
        ((List.replicate steps [dot, slash]).flatten ++ rest)
      rw [ih] at split
      exact split

namespace Path

variable {path : Path}

theorem exists_pieces (path : Path) : ∃ first rest, path.pieces = first :: rest :=
  List.exists_cons_of_ne_nil (List.splitOn_ne_nil slash path.bytes)

theorem noSlash_of_mem_pieces {piece : Bytes} (member : piece ∈ path.pieces) : slash ∉ piece := by
  intro slash
  exact (mem_splitOn_iff.mp ⟨piece, member, slash⟩).2 rfl

/-! ## Components -/

theorem components_of_pieces {first : Bytes} {rest : List Bytes}
    (cut : path.pieces = first :: rest) (nonempty : path.bytes ≠ []) :
    path.components = leading first ++ rest.filterMap ofPiece := by
  rw [components, if_neg nonempty, cut]
  rfl

/-- The first piece is empty if a slash stands in front. -/
theorem first_eq_nil_iff {first : Bytes} {rest : List Bytes} (cut : path.pieces = first :: rest)
    (nonempty : path.bytes ≠ []) : first = [] ↔ path.bytes.head? = some slash := by
  obtain ⟨c, cs, whole⟩ := List.exists_cons_of_ne_nil nonempty
  rw [pieces, whole, List.splitOn_cons_eq_if_modifyHead] at cut
  rw [whole, List.head?_cons, Option.some_inj]
  by_cases same : c = slash
  · rw [if_pos (by simpa using same)] at cut
    exact iff_of_true (List.cons.inj cut).1.symm same
  · rw [if_neg (by simpa using same)] at cut
    obtain ⟨next, others, split⟩ := List.exists_cons_of_ne_nil (List.splitOn_ne_nil slash cs)
    rw [split, List.modifyHead_cons] at cut
    refine iff_of_false ?_ same
    rw [← (List.cons.inj cut).1]
    exact List.cons_ne_nil c next

/-- Only the empty path has no components. -/
theorem components_eq_nil_iff : path.components = [] ↔ path.bytes = [] := by
  constructor
  · intro none
    by_contra nonempty
    obtain ⟨first, rest, cut⟩ := path.exists_pieces
    have noSlash : slash ∉ first := noSlash_of_mem_pieces (by rw [cut]; exact List.mem_cons_self)
    rw [components_of_pieces cut nonempty] at none
    have nothing := (List.append_eq_nil_iff.mp none).1
    unfold leading at nothing
    split at nothing
    · contradiction
    · next notEmpty =>
      split at nothing
      · contradiction
      · next notDot =>
        have named := isSome_ofPiece notEmpty notDot noSlash
        rw [Option.toList_eq_nil_iff.mp nothing] at named
        contradiction
  · intro empty
    rw [components, if_pos empty]

/-! ## Bytes -/

theorem mem_piece_iff {piece : Bytes} {c : UInt8} (noSlash : slash ∉ piece) (notDot : c ≠ dot) :
    c ∈ piece ↔ ∃ component ∈ ofPiece piece, c ∈ component.nameBytes := by
  unfold ofPiece
  split
  · simp [nameBytes]
  · next improper =>
    have special : piece = [] ∨ piece = [dot] ∨ piece = [dot, dot] := by
      simp only [isName, Bool.and_eq_true, decide_eq_true_eq] at improper
      tauto
    rcases special with rfl | rfl | rfl <;> simp [notDot, nameBytes]

theorem mem_leading_iff {piece : Bytes} {c : UInt8} (noSlash : slash ∉ piece) (notDot : c ≠ dot) :
    c ∈ piece ↔ ∃ component ∈ leading piece, c ∈ component.nameBytes := by
  unfold leading
  split
  · next empty => simp [empty, nameBytes]
  · split
    · next dotted => simp [dotted, notDot, nameBytes]
    · simpa using mem_piece_iff noSlash notDot

theorem mem_pieces_iff {ps : List Bytes} {c : UInt8} (noSlash : ∀ piece ∈ ps, slash ∉ piece)
    (notDot : c ≠ dot) :
    (∃ piece ∈ ps, c ∈ piece) ↔
      ∃ component ∈ ps.filterMap ofPiece, c ∈ component.nameBytes := by
  constructor
  · rintro ⟨piece, member, inside⟩
    obtain ⟨component, gives, named⟩ := (mem_piece_iff (noSlash piece member) notDot).mp inside
    exact ⟨component, List.mem_filterMap.mpr ⟨piece, member, gives⟩, named⟩
  · rintro ⟨component, member, named⟩
    obtain ⟨piece, member, gives⟩ := List.mem_filterMap.mp member
    have inside := (mem_piece_iff (noSlash piece member) notDot).mpr ⟨component, gives, named⟩
    exact ⟨piece, member, inside⟩

/-- Slashes and dots apart, the bytes of a path are those of the names in it. -/
theorem mem_bytes_iff {c : UInt8} (notSlash : c ≠ slash) (notDot : c ≠ dot) :
    c ∈ path.bytes ↔
      ∃ component ∈ path.components, c ∈ component.nameBytes := by
  by_cases empty : path.bytes = []
  · rw [components_eq_nil_iff.mpr empty, empty]
    simp
  · obtain ⟨first, rest, cut⟩ := path.exists_pieces
    have noSlash : ∀ piece ∈ first :: rest, slash ∉ piece := by
      intro piece member
      rw [← cut] at member
      exact noSlash_of_mem_pieces member
    have inPieces : (∃ piece ∈ path.pieces, c ∈ piece) ↔ c ∈ path.bytes ∧ c ≠ slash :=
      mem_splitOn_iff
    rw [cut] at inPieces
    calc c ∈ path.bytes
      _ ↔ ∃ piece ∈ first :: rest, c ∈ piece := by rw [inPieces]; simp [notSlash]
      _ ↔ c ∈ first ∨ ∃ piece ∈ rest, c ∈ piece := by simp
      _ ↔ _ := by
        rw [mem_leading_iff (noSlash first List.mem_cons_self) notDot,
          mem_pieces_iff (fun piece member => noSlash piece (List.mem_cons_of_mem _ member)) notDot,
          components_of_pieces cut empty]
        simp only [List.mem_append, or_and_right, exists_or]

/-! ## Ends -/

/-- Whether a path ends neither in a slash nor in a dot behind a slash. -/
def isPlain (path : Path) : Bool :=
  !([slash].isSuffixOf path.bytes) && !([slash, dot].isSuffixOf path.bytes)

/-- Either a path is a single piece, or it is split at its last slash. -/
theorem exists_last_piece (path : Path) :
    path.pieces = [path.bytes] ∨
      ∃ front last, path.bytes = front ++ slash :: last ∧ slash ∉ last ∧
        path.pieces = front.splitOn slash ++ [last] := by
  by_cases slashed : slash ∈ path.bytes.reverse
  · obtain ⟨back, front, whole, noSlash⟩ := List.eq_append_cons_of_mem slashed
    have noSlash : slash ∉ back.reverse := by simpa using noSlash
    have split : path.bytes = front.reverse ++ slash :: back.reverse := by
      rw [← List.reverse_reverse path.bytes, whole]
      simp
    refine .inr ⟨front.reverse, back.reverse, split, noSlash, ?_⟩
    rw [pieces, split, List.splitOn_append_cons_self, List.splitOn_eq_singleton noSlash]
  · refine .inl ?_
    rw [pieces, List.splitOn_eq_singleton (by simpa using slashed)]

/-- The last piece of a plain path is a component, if it is not the first piece too. -/
theorem isSome_last_of_isPlain (plain : path.isPlain = true) {first last : Bytes}
    {rest : List Bytes} (cut : path.pieces = first :: (rest ++ [last])) :
    (ofPiece last).isSome = true := by
  rcases path.exists_last_piece with alone | ⟨front, back, split, noSlash, pieces_eq⟩
  · simp [alone] at cut
  · have lasts : front.splitOn slash ++ [back] = (first :: rest) ++ [last] :=
      pieces_eq.symm.trans cut
    obtain rfl : back = last := List.singleton_inj.mp (List.append_inj' lasts rfl).2
    simp only [isPlain, split, Bool.and_eq_true, Bool.not_eq_true', ← Bool.not_eq_true,
      List.isSuffixOf_iff_suffix] at plain
    apply isSome_ofPiece _ _ noSlash
    · rintro rfl
      exact plain.1 (List.suffix_append front [slash])
    · rintro rfl
      exact plain.2 (List.suffix_append front [slash, dot])

/-! ## Joining a name -/

/-- One slash stands between a path and a name that is joined to it, whether or not the path ends in
one. -/
theorem bytes_join (nonempty : path.bytes ≠ []) (name : Bytes) :
    ∃ front, (path.join name).bytes = front ++ slash :: name ∧
      (path.bytes = front ∨ path.bytes = front ++ [slash]) := by
  by_cases ends : path.bytes.getLast? = some slash
  · obtain ⟨front, split⟩ := List.getLast?_eq_some_iff.mp ends
    refine ⟨front, ?_, .inr split⟩
    rw [join, if_pos (.inr ends)]
    simp [split]
  · refine ⟨path.bytes, ?_, .inl rfl⟩
    rw [join, if_neg (by simp [nonempty, ends])]

theorem join_nonempty (nonempty : path.bytes ≠ []) (name : Bytes) :
    (path.join name).bytes ≠ [] := by
  obtain ⟨front, joined, -⟩ := bytes_join nonempty name
  intro empty
  simp [empty] at joined

/-- A name that is joined to a path is one more component. -/
theorem components_join (nonempty : path.bytes ≠ []) (name : FileName) :
    (path.join name.bytes).components = path.components ++ [.name name] := by
  obtain ⟨front, joined, split⟩ := bytes_join nonempty name.bytes
  obtain ⟨first, rest, cut⟩ := List.exists_cons_of_ne_nil (List.splitOn_ne_nil slash front)
  have joinedPieces : (path.join name.bytes).pieces = first :: (rest ++ [name.bytes]) := by
    rw [pieces, joined, List.splitOn_append_cons_self, List.splitOn_eq_singleton name.noSlash, cut]
    rfl
  have whole : path.components = leading first ++ rest.filterMap ofPiece := by
    rcases split with same | ended
    · exact components_of_pieces (by rw [pieces, same, cut]) nonempty
    · have cut' : path.pieces = first :: (rest ++ [[]]) := by
        rw [pieces, ended, List.splitOn_append_cons_self, cut]
        rfl
      rw [components_of_pieces cut' nonempty, List.filterMap_append]
      simp [ofPiece, isName]
  rw [components_of_pieces joinedPieces (join_nonempty nonempty name.bytes), whole,
    List.filterMap_append, List.append_assoc]
  simp

/-- A path that ends in a name is plain. -/
theorem isPlain_of_suffix (name : FileName) (ends : name.bytes <:+ path.bytes) :
    path.isPlain = true := by
  -- of two suffixes, one is a suffix of the other
  have overlaps : ∀ {back : Bytes}, back <:+ path.bytes → slash ∈ back → name.bytes <:+ back := by
    intro back suffix slashed
    rcases List.suffix_or_suffix_of_suffix suffix ends with inside | inside
    · exact absurd (inside.subset slashed) name.noSlash
    · exact inside
  simp only [isPlain, Bool.and_eq_true, Bool.not_eq_true', ← Bool.not_eq_true,
    List.isSuffixOf_iff_suffix]
  constructor
  · intro slashed
    rcases List.suffix_cons_iff.mp (overlaps slashed (by simp)) with same | none
    · exact name.noSlash (by simp [same])
    · exact name.nonempty (List.suffix_nil.mp none)
  · intro dotted
    rcases List.suffix_cons_iff.mp (overlaps dotted (by simp)) with same | inside
    · exact name.noSlash (by simp [same])
    · rcases List.suffix_cons_iff.mp inside with same | none
      · exact name.ne_dot same
      · exact name.nonempty (List.suffix_nil.mp none)

theorem isPlain_join (nonempty : path.bytes ≠ []) (name : FileName) :
    (path.join name.bytes).isPlain = true := by
  obtain ⟨front, joined, -⟩ := bytes_join nonempty name.bytes
  apply isPlain_of_suffix name
  rw [joined, List.append_cons]
  exact List.suffix_append _ _

end Path

end Specimen
