/-
# Specimen.Proofs.Text.Pieces — which lists of texts are the pieces of a text.

`IsCut` says what the pieces of a text look like: each ends with its only newline, except that the
last may have none and is then not empty.  The pieces of every text are such a list, and every such
list is the list of the pieces of one text, the one that `flatten` gives.  So the pieces of a text
can be changed one by one and put together again, and as long as the list stays a cut, nothing moves
from one piece to another.
-/
import Mathlib.Data.List.Basic
import Mathlib.Data.List.TakeWhile
import Specimen.Text.Lines

namespace Specimen.Text

/-- Every piece ends with its only newline, or is the last, and has none, and is not empty. -/
inductive IsCut : List (List Char) → Prop
  | nil : IsCut []
  | last {piece : List Char} : piece ≠ [] → '\n' ∉ piece → IsCut [piece]
  | ended {text : List Char} {rest : List (List Char)} :
      '\n' ∉ text → IsCut rest → IsCut ((text ++ ['\n']) :: rest)

/-! ## Pieces are cut -/

theorem pieces_cons (c : Char) (cs : List Char) : pieces (c :: cs) = prepend c (pieces cs) := rfl

theorem prepend_newline (ps : List (List Char)) : prepend '\n' ps = ['\n'] :: ps := by
  cases ps <;> rfl

theorem prepend_of_ne {c : Char} (ne : c ≠ '\n') (piece : List Char) (ps : List (List Char)) :
    prepend c (piece :: ps) = (c :: piece) :: ps := if_neg ne

theorem IsCut.prepend {ps : List (List Char)} (cut : IsCut ps) (c : Char) :
    IsCut (prepend c ps) := by
  by_cases newline : c = '\n'
  · subst newline
    rw [prepend_newline]
    show IsCut (([] ++ ['\n']) :: ps)
    exact .ended List.not_mem_nil cut
  · have ne : '\n' ≠ c := fun same => newline same.symm
    cases cut with
    | nil => exact .last (List.cons_ne_nil c []) (by simpa using ne)
    | last nonempty none =>
        rw [prepend_of_ne newline]
        exact .last (List.cons_ne_nil _ _) (by simp [ne, none])
    | @ended text rest none cut =>
        rw [prepend_of_ne newline]
        show IsCut ((c :: text ++ ['\n']) :: rest)
        exact .ended (by simp [ne, none]) cut

theorem isCut_pieces (cs : List Char) : IsCut (pieces cs) := by
  induction cs with
  | nil => exact .nil
  | cons c cs ih => exact ih.prepend c

/-! ## A cut list is cut from its text -/

theorem pieces_append_newline {text : List Char} (none : '\n' ∉ text) (rest : List Char) :
    pieces (text ++ '\n' :: rest) = (text ++ ['\n']) :: pieces rest := by
  induction text with
  | nil => exact prepend_newline _
  | cons c text ih =>
      obtain ⟨ne, none⟩ : '\n' ≠ c ∧ '\n' ∉ text := by simpa using none
      rw [List.cons_append, pieces_cons, ih none, prepend_of_ne ne.symm]
      rfl

theorem pieces_of_not_mem {text : List Char} (nonempty : text ≠ []) (none : '\n' ∉ text) :
    pieces text = [text] := by
  induction text with
  | nil => contradiction
  | cons c text ih =>
      obtain ⟨ne, none⟩ : '\n' ≠ c ∧ '\n' ∉ text := by simpa using none
      cases text with
      | nil => rfl
      | cons d text => rw [pieces_cons, ih (List.cons_ne_nil d text) none, prepend_of_ne ne.symm]

theorem IsCut.pieces_flatten {ps : List (List Char)} (cut : IsCut ps) :
    pieces ps.flatten = ps := by
  induction cut with
  | nil => rfl
  | last nonempty none =>
      rw [List.flatten_singleton]
      exact pieces_of_not_mem nonempty none
  | @ended text rest none _ ih =>
      rw [List.flatten_cons, List.append_assoc, List.singleton_append, pieces_append_newline none,
        ih]

/-! ## Parts of a cut list -/

theorem IsCut.tail {piece : List Char} {ps : List (List Char)} (cut : IsCut (piece :: ps)) :
    IsCut ps := by
  cases cut with
  | last => exact .nil
  | ended _ rest => exact rest

theorem IsCut.drop {ps : List (List Char)} (cut : IsCut ps) (n : Nat) : IsCut (ps.drop n) := by
  induction n generalizing ps with
  | zero => exact cut
  | succ n ih =>
      cases ps with
      | nil => exact .nil
      | cons piece ps => exact ih cut.tail

theorem IsCut.take {ps : List (List Char)} (cut : IsCut ps) (n : Nat) : IsCut (ps.take n) := by
  induction cut generalizing n with
  | nil => rw [List.take_nil]; exact .nil
  | last nonempty none =>
      cases n with
      | zero => exact .nil
      | succ n =>
          rw [List.take_succ_cons, List.take_nil]
          exact .last nonempty none
  | ended none _ ih =>
      cases n with
      | zero => exact .nil
      | succ n => exact .ended none (ih n)

/-- Only the last piece can lack a newline. -/
theorem IsCut.getLast?_eq {ps : List (List Char)} (cut : IsCut ps) {piece : List Char}
    (member : piece ∈ ps) (none : '\n' ∉ piece) : ps.getLast? = some piece := by
  induction cut with
  | nil => cases member
  | last =>
      obtain rfl := List.mem_singleton.mp member
      rfl
  | @ended text rest _ _ ih =>
      rcases List.mem_cons.mp member with rfl | member
      · simp at none
      · rw [List.getLast?_cons, ih member]
        rfl

/-! ## Texts put together -/

theorem withoutNewline_cons_of_ne {c : Char} (ne : c ≠ '\n') (piece : List Char) :
    withoutNewline (c :: piece) = c :: withoutNewline piece :=
  List.takeWhile_cons_of_pos (by simpa using ne)

theorem withoutNewline_of_not_mem {text : List Char} (none : '\n' ∉ text) :
    withoutNewline text = text := by
  apply List.takeWhile_eq_self_iff.mpr
  intro c member
  simpa using ne_of_mem_of_not_mem member none

theorem withoutNewline_ended {text : List Char} (none : '\n' ∉ text) :
    withoutNewline (text ++ ['\n']) = text := by
  have inside : ∀ c ∈ text, decide (c ≠ '\n') = true := by
    intro c member
    simpa using ne_of_mem_of_not_mem member none
  rw [withoutNewline, List.takeWhile_append_of_pos inside]
  simp

/-- All that a piece has besides its line is a newline, if it has one. -/
theorem IsCut.eq_withoutNewline {ps : List (List Char)} (cut : IsCut ps) {piece : List Char}
    (member : piece ∈ ps) :
    piece = withoutNewline piece ∨ piece = withoutNewline piece ++ ['\n'] := by
  induction cut with
  | nil => cases member
  | last _ none =>
      obtain rfl := List.mem_singleton.mp member
      exact .inl (withoutNewline_of_not_mem none).symm
  | ended none _ ih =>
      rcases List.mem_cons.mp member with rfl | member
      · exact .inr (by rw [withoutNewline_ended none])
      · exact ih member

/-- All that a line loses besides its newline is a carriage return. -/
theorem withoutNewline_eq (piece : List Char) :
    withoutNewline piece = withoutLineEnd piece ∨
      withoutNewline piece = withoutLineEnd piece ++ ['\r'] := by
  rw [withoutLineEnd]
  split
  · next ends => exact .inr (List.dropLast_append_getLast? _ (Option.mem_def.mpr ends.2)).symm
  · exact .inl rfl

theorem not_mem_of_mem_lines {cs text : List Char} (member : text ∈ lines cs) : '\n' ∉ text := by
  obtain ⟨piece, -, rfl⟩ := List.mem_map.mp member
  have whole : '\n' ∉ withoutNewline piece := by
    intro newline
    have other := List.mem_takeWhile_imp newline
    simp at other
  rcases withoutNewline_eq piece with same | returned
  · rwa [← same]
  · exact fun newline => whole (by rw [returned]; exact List.mem_append_left _ newline)

theorem IsCut.map_withoutNewline_append {ps : List (List Char)} (cut : IsCut ps) {last : Char}
    (ends : ps.flatten.getLast? = some last) (unended : last ≠ '\n') :
    (pieces (ps.flatten ++ ['\n'])).map withoutNewline = ps.map withoutNewline := by
  induction cut with
  | nil => contradiction
  | last _ none =>
      rw [List.flatten_singleton, pieces_append_newline none [], List.map_cons,
        withoutNewline_ended none, List.map_singleton, withoutNewline_of_not_mem none]
      rfl
  | @ended text rest none _ ih =>
      have more : rest.flatten ≠ [] := by
        intro nothing
        rw [List.flatten_cons, nothing, List.append_nil, List.getLast?_concat] at ends
        exact unended (Option.some.inj ends).symm
      rw [List.flatten_cons, List.getLast?_append_of_ne_nil _ more] at ends
      rw [List.flatten_cons, List.append_assoc, List.append_assoc, List.singleton_append,
        pieces_append_newline none, List.map_cons, List.map_cons, ih ends]

theorem IsCut.pieces_append {ps : List (List Char)} (cut : IsCut ps)
    (ended : ∀ c ∈ ps.flatten.getLast?, c = '\n') (rest : List Char) :
    pieces (ps.flatten ++ rest) = ps ++ pieces rest := by
  induction cut with
  | nil => rfl
  | @last piece nonempty none =>
      rw [List.flatten_singleton] at ended
      have newline := ended _ (List.getLast?_eq_some_getLast nonempty)
      exact absurd (newline ▸ List.getLast_mem nonempty) none
  | @ended text more none _ ih =>
      have others : pieces (more.flatten ++ rest) = more ++ pieces rest := by
        apply ih
        intro c last
        apply ended c
        rw [List.flatten_cons, List.getLast?_append, Option.mem_def.mp last]
        rfl
      rw [List.flatten_cons, List.append_assoc, List.append_assoc, List.singleton_append,
        pieces_append_newline none, others, List.cons_append]

/-- A text that is empty or ends with a newline keeps its lines when more text follows. -/
theorem lines_append {cs : List Char} (ended : ∀ c ∈ cs.getLast?, c = '\n') (rest : List Char) :
    lines (cs ++ rest) = lines cs ++ lines rest := by
  rw [← flatten_pieces cs] at ended
  have joined := (isCut_pieces cs).pieces_append ended rest
  rw [flatten_pieces] at joined
  rw [lines, joined, List.map_append]
  rfl

/-- A newline at the end completes the last piece and opens no further one. -/
theorem map_withoutNewline_append {cs : List Char} {last : Char} (ends : cs.getLast? = some last)
    (unended : last ≠ '\n') :
    (pieces (cs ++ ['\n'])).map withoutNewline = (pieces cs).map withoutNewline := by
  rw [← flatten_pieces cs] at ends
  have completed := (isCut_pieces cs).map_withoutNewline_append ends unended
  rwa [flatten_pieces] at completed

/-- Texts without newlines, each ended by one, are the pieces of what they make together. -/
theorem pieces_flatMap_newline {texts : List (List Char)} (none : ∀ text ∈ texts, '\n' ∉ text) :
    pieces (texts.flatMap (· ++ ['\n'])) = texts.map (· ++ ['\n']) := by
  induction texts with
  | nil => rfl
  | cons text texts ih =>
      have inText : '\n' ∉ text := none text List.mem_cons_self
      have others := ih fun text member => none text (List.mem_cons_of_mem _ member)
      rw [List.flatMap_cons, List.append_assoc, List.singleton_append,
        pieces_append_newline inText, List.map_cons, others]

/-! ## The byte-order mark -/

theorem withoutByteOrderMark_eq_self {cs : List Char} (h : cs.head? ≠ some byteOrderMark) :
    withoutByteOrderMark cs = cs := by
  cases cs with
  | nil => rfl
  | cons c cs => exact if_neg fun mark => h (congrArg some mark)

/-- What follows a text that ends with a newline cannot become its byte-order mark, nor does the
newline go with the mark. -/
theorem withoutByteOrderMark_append {cs rest : List Char} (ended : ∀ c ∈ cs.getLast?, c = '\n')
    (unmarked : rest.head? ≠ some byteOrderMark) :
    withoutByteOrderMark (cs ++ rest) = withoutByteOrderMark cs ++ rest ∧
      ∀ c ∈ (withoutByteOrderMark cs).getLast?, c = '\n' := by
  cases cs with
  | nil => exact ⟨withoutByteOrderMark_eq_self unmarked, nofun⟩
  | cons c cs =>
      rw [List.cons_append, withoutByteOrderMark, withoutByteOrderMark]
      split
      · refine ⟨rfl, ?_⟩
        intro last inside
        apply ended last
        rw [List.getLast?_cons, Option.mem_def.mp inside]
        rfl
      · exact ⟨rfl, ended⟩

/-- A byte-order mark belongs to the first piece. -/
theorem drop_pieces_withoutByteOrderMark (cs : List Char) :
    (pieces (withoutByteOrderMark cs)).drop 1 = (pieces cs).drop 1 := by
  cases cs with
  | nil => rfl
  | cons c cs =>
      rw [withoutByteOrderMark]
      split
      · next mark =>
        have ne : c ≠ '\n' := by rw [mark]; decide
        rw [pieces_cons]
        cases pieces cs with
        | nil => rfl
        | cons piece ps => rw [prepend_of_ne ne]; rfl
      · rfl

/-- A piece of a text, given with its number, without the mark that the first one can carry. -/
def unmarked (number : Nat) (piece : List Char) : List Char :=
  if number = 0 then withoutByteOrderMark piece else piece

theorem exists_prepend (c : Char) (ps : List (List Char)) :
    ∃ text rest, prepend c ps = (c :: text) :: rest := by
  cases ps with
  | nil => exact ⟨[], [], rfl⟩
  | cons piece ps =>
      by_cases newline : c = '\n'
      · exact ⟨[], piece :: ps, if_pos newline⟩
      · exact ⟨piece, ps, prepend_of_ne newline piece ps⟩

/-- To remove the mark of a text is to remove the mark of its first piece. -/
theorem getElem?_pieces_of_withoutByteOrderMark {cs piece : List Char} {k : Nat}
    (found : (pieces (withoutByteOrderMark cs))[k]? = some piece) :
    ∃ raw, (pieces cs)[k]? = some raw ∧ unmarked k raw = piece := by
  cases k with
  | succ k =>
      refine ⟨piece, ?_, rfl⟩
      have same := congrArg (·[k]?) (drop_pieces_withoutByteOrderMark cs)
      simp only [List.getElem?_drop, Nat.add_comm 1 k] at same
      rw [← same, found]
  | zero =>
      cases cs with
      | nil => contradiction
      | cons c cs =>
          by_cases mark : c = byteOrderMark
          · rw [withoutByteOrderMark, if_pos mark] at found
            rw [pieces_cons]
            cases more : pieces cs with
            | nil => simp [more] at found
            | cons first rest =>
                have ne : c ≠ '\n' := by rw [mark]; decide
                obtain rfl : first = piece := by simpa [more] using found
                exact ⟨c :: first, by rw [prepend_of_ne ne]; rfl, if_pos mark⟩
          · rw [withoutByteOrderMark, if_neg mark, pieces_cons] at found
            refine ⟨piece, found, ?_⟩
            obtain ⟨text, rest, whole⟩ := exists_prepend c (pieces cs)
            obtain rfl : c :: text = piece := by simpa [whole] using found
            exact if_neg mark

end Specimen.Text
