/-
# Specimen.Text.Lines — a text as a sequence of lines.

Every newline ends a line, and nothing else does.  A piece is a line together with its newline;
only the last piece can lack one.  The pieces of a text, one after the other, are the text again:
a final newline opens no further line, and the empty text has no line at all.

A carriage return in front of a newline belongs to the end of the line.  One that no newline follows
is part of the line, also at the end of the text.
-/

namespace Specimen.Text

/-- Puts one character in front of a text that is already cut into pieces. -/
def prepend (c : Char) : List (List Char) → List (List Char)
  | [] => [[c]]
  | piece :: pieces => if c = '\n' then [c] :: piece :: pieces else (c :: piece) :: pieces

/-- The pieces of a text, each with the newline that ends it. -/
def pieces (cs : List Char) : List (List Char) := cs.foldr prepend []

/-- A piece without its newline. -/
def withoutNewline (piece : List Char) : List Char := piece.takeWhile (· ≠ '\n')

/-- A piece without the end of its line: the newline, and a carriage return in front of it. -/
def withoutLineEnd (piece : List Char) : List Char :=
  let text := withoutNewline piece
  if '\n' ∈ piece ∧ text.getLast? = some '\r' then text.dropLast else text

/-- The lines of a text, without their ends. -/
def lines (cs : List Char) : List (List Char) := (pieces cs).map withoutLineEnd

/-- The mark that some editors write at the start of a file. -/
def byteOrderMark : Char := '\uFEFF'

/-- The text without one leading byte-order mark. -/
def withoutByteOrderMark : List Char → List Char
  | [] => []
  | c :: cs => if c = byteOrderMark then cs else c :: cs

@[simp]
theorem prepend_ne_nil (c : Char) (ps : List (List Char)) : prepend c ps ≠ [] := by
  cases ps <;> simp [prepend]
  split <;> simp

theorem flatten_prepend (c : Char) (ps : List (List Char)) :
    (prepend c ps).flatten = c :: ps.flatten := by
  cases ps <;> simp [prepend]
  split <;> simp

/-- Cutting into pieces loses nothing. -/
theorem flatten_pieces (cs : List Char) : (pieces cs).flatten = cs := by
  induction cs with
  | nil => rfl
  | cons c cs ih => rw [pieces, List.foldr_cons, flatten_prepend]; exact congrArg (c :: ·) ih

end Specimen.Text
