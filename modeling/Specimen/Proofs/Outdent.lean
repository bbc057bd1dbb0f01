/-
# Specimen.Proofs.Outdent — what a piece loses when it is taken out one level.

`outdent` removes blanks or a tab from the front of a piece and touches nothing else.  So the line
that the piece holds keeps its content, and its indentation goes down by what was removed; a piece
that ends with a newline still does.  Only a piece without newline that is nothing but indentation
can vanish.
-/
import Mathlib.Data.List.Forall2
import Mathlib.Data.List.TakeWhile
import Specimen.Proofs.Template.Pieces
import Specimen.Proofs.Template.Relayout
import Specimen.Span

namespace Specimen

open Text Template

/-! ## What is removed -/

/-- The number of characters that `outdent` removes. -/
def outdented (width : Nat) (piece : List Char) : Nat :=
  if piece.head? = some '\t' then 1
  else if width ≤ (piece.takeWhile (· = ' ')).length then width else 0

/-- Only indentation is removed. -/
theorem outdent_spec (width : Nat) (piece : List Char) :
    ∃ removed, piece = removed ++ outdent width piece ∧
      removed.length = outdented width piece ∧ ∀ c ∈ removed, isIndentation c = true := by
  unfold outdent outdented
  split
  · next rest =>
    refine ⟨['\t'], rfl, rfl, ?_⟩
    intro c member
    obtain rfl := List.mem_singleton.mp member
    rfl
  · next no_tab =>
    have plain : piece.head? ≠ some '\t' := by
      intro tab
      obtain ⟨rest, rfl⟩ := List.head?_eq_some_iff.mp tab
      exact no_tab rest rfl
    rw [if_neg plain]
    split
    · next enough =>
      refine ⟨piece.take width, (List.take_append_drop width piece).symm, ?_, fun c member => ?_⟩
      · have whole := (List.takeWhile_prefix (· = ' ') (l := piece)).length_le
        rw [List.length_take]
        omega
      · have front : piece.take width = (piece.takeWhile (· = ' ')).take width := by
          conv_lhs => rw [← List.takeWhile_append_dropWhile (p := (· = ' ')) (l := piece)]
          exact List.take_append_of_le_length enough
        rw [front] at member
        have blank : c = ' ' := by simpa using List.mem_takeWhile_imp (List.mem_of_mem_take member)
        rw [blank]
        rfl
    · exact ⟨[], rfl, rfl, by simp⟩

/-! ## What is left -/

theorem not_newline_of_isIndentation {c : Char} (h : isIndentation c = true) : c ≠ '\n' := by
  rintro rfl
  contradiction

/-- Indentation in front of a piece is indentation of its line. -/
theorem Template.Line.ofPiece_append {front : List Char} (h : ∀ c ∈ front, isIndentation c = true)
    (piece : List Char) : Line.ofPiece (front ++ piece) =
      ⟨front.length + (Line.ofPiece piece).indent, (Line.ofPiece piece).content⟩ := by
  have inside : withoutNewline (front ++ piece) = front ++ withoutNewline piece :=
    List.takeWhile_append_of_pos fun c member => by
      simpa using not_newline_of_isIndentation (h c member)
  rw [Line.ofPiece, Line.ofPiece, inside, Line.ofChars, Line.ofChars,
    List.takeWhile_append_of_pos h, List.dropWhile_append_of_pos h, List.length_append]

/-- The line of a piece that is taken out says the same, and its indentation goes down by what is
removed. -/
theorem ofPiece_outdent (width : Nat) (piece : List Char) :
    (Line.ofPiece (outdent width piece)).content = (Line.ofPiece piece).content ∧
      (Line.ofPiece piece).indent =
        (Line.ofPiece (outdent width piece)).indent + outdented width piece := by
  obtain ⟨removed, shape, size, indentation⟩ := outdent_spec width piece
  have whole := Line.ofPiece_append indentation (outdent width piece)
  rw [← shape] at whole
  rw [whole, size]
  exact ⟨rfl, Nat.add_comm _ _⟩

/-- A piece that ends with its only newline still does. -/
theorem outdent_newline (width : Nat) {text : List Char} (none : '\n' ∉ text) :
    ∃ text', outdent width (text ++ ['\n']) = text' ++ ['\n'] ∧ '\n' ∉ text' := by
  obtain ⟨removed, shape, -, indentation⟩ := outdent_spec width (text ++ ['\n'])
  have kept : '\n' ∉ removed := by
    intro member
    exact not_newline_of_isIndentation (indentation _ member) rfl
  rcases List.append_eq_append_iff.mp shape with ⟨more, rfl, rest⟩ | ⟨text', rfl, rest⟩
  · cases more with
    | nil => exact ⟨[], rest.symm, List.not_mem_nil⟩
    | cons c more =>
        obtain ⟨rfl, -⟩ := List.cons.inj rest
        simp at kept
  · exact ⟨text', rest, fun member => none (List.mem_append_right _ member)⟩

/-! ## Taking out a run of pieces -/

/-- All pieces that are not blank begin with a tab, or all of them with at least `width` blanks and
none with a tab. -/
def Uniform (width : Nat) (ps : List (List Char)) : Prop :=
  (∀ piece ∈ ps, (Line.ofPiece piece).isBlank = false → piece.head? = some '\t') ∨
    (∀ piece ∈ ps, (Line.ofPiece piece).isBlank = false →
      width ≤ (piece.takeWhile (· = ' ')).length ∧ piece.head? ≠ some '\t')

instance (width : Nat) (ps : List (List Char)) : Decidable (Uniform width ps) :=
  inferInstanceAs (Decidable (_ ∨ _))

/-- From uniform pieces the same is removed, blank ones apart. -/
theorem Uniform.shift {width : Nat} {ps : List (List Char)} (uniform : Uniform width ps) :
    ∃ shift, ∀ piece ∈ ps, (Line.ofPiece piece).isBlank = false →
      outdented width piece = shift := by
  rcases uniform with tabs | blanks
  · exact ⟨1, fun piece member nonblank => if_pos (tabs piece member nonblank)⟩
  · refine ⟨width, ?_⟩
    intro piece member nonblank
    obtain ⟨enough, plain⟩ := blanks piece member nonblank
    rw [outdented, if_neg plain, if_pos enough]

/-- The lines of uniform pieces keep the order of their indentations when they are taken out. -/
theorem Uniform.corresponds {width : Nat} {ps : List (List Char)} (uniform : Uniform width ps) :
    ∃ R, KeepsOrder R ∧ List.Forall₂ (Corresponds R) (ps.map Line.ofPiece)
      ((ps.map (outdent width)).map Line.ofPiece) := by
  obtain ⟨shift, same⟩ := uniform.shift
  refine ⟨fun a b => a = b + shift, fun a a' b b' ha hb => by omega, ?_⟩
  rw [List.map_map, List.forall₂_map_left_iff, List.forall₂_map_right_iff, List.forall₂_same]
  intro piece member
  obtain ⟨content, indent⟩ := ofPiece_outdent width piece
  refine ⟨content, ?_⟩
  intro nonblank
  rw [← same piece member nonblank]
  exact indent

/-- Pieces that are taken out stay pieces. -/
theorem isCut_map_outdent (width : Nat) {ps : List (List Char)} (cut : IsCut ps)
    (ends : ∀ piece ∈ ps, '\n' ∉ piece → (Line.ofPiece piece).isBlank = false) :
    IsCut (ps.map (outdent width)) := by
  induction cut with
  | nil => exact .nil
  | @last piece _ none =>
      obtain ⟨removed, shape, -⟩ := outdent_spec width piece
      have nonblank := ends piece List.mem_cons_self none
      refine .last (fun empty => ?_) fun member => none ?_
      · have content := (ofPiece_outdent width piece).1
        rw [Line.isBlank, ← content, empty] at nonblank
        contradiction
      · rw [shape]
        exact List.mem_append_right _ member
  | @ended text rest none _ ih =>
      obtain ⟨text', shape, none'⟩ := outdent_newline width none
      rw [List.map_cons, shape]
      exact .ended none' (ih fun piece member => ends piece (List.mem_cons_of_mem _ member))

end Specimen
