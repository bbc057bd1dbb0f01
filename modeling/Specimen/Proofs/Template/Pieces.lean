/-
# Specimen.Proofs.Template.Pieces — the lines of a source and the pieces of its text.

A template is read line by line, without the ends of the lines.  A span is cut out of it piece by
piece, line ends included.  The two see the same lines: a carriage return at the end of a line is
white space and no indentation, so it does not matter to a line whether it is still there.
-/
import Specimen.Proofs.Text.Pieces
import Specimen.Proofs.Text.Trim
import Specimen.Template.Outline

namespace Specimen.Template

open Text Unicode

/-- The line that a piece holds. -/
def Line.ofPiece (piece : List Char) : Line := Line.ofChars (withoutNewline piece)

/-- A carriage return behind a text changes nothing about its line. -/
theorem Line.ofChars_append_return (text : List Char) :
    Line.ofChars (text ++ ['\r']) = Line.ofChars text := by
  have white : ∀ c ∈ ['\r'], isWhiteSpace c = true := List.forall_mem_singleton.mpr (by decide)
  have front : (text ++ ['\r']).takeWhile isIndentation = text.takeWhile isIndentation := by
    rw [List.takeWhile_append]
    split
    · next whole =>
      have stops : ['\r'].takeWhile isIndentation = [] := by decide
      rw [stops, List.append_nil, (List.takeWhile_prefix _).eq_of_length whole]
    · rfl
  have back : (text ++ ['\r']).dropWhile isIndentation =
      text.dropWhile isIndentation ++ ['\r'] := by
    rw [List.dropWhile_append]
    split
    · next none => rw [List.isEmpty_iff.mp none]; rfl
    · rfl
  rw [Line.ofChars, Line.ofChars, front, back, trimEnd_append white]

theorem Line.ofChars_withoutLineEnd (piece : List Char) :
    Line.ofChars (withoutLineEnd piece) = Line.ofPiece piece := by
  rw [Line.ofPiece]
  rcases withoutNewline_eq piece with same | returned
  · rw [same]
  · rw [returned, Line.ofChars_append_return]

theorem sourceLines_eq (source : String) : sourceLines source =
    (pieces (withoutByteOrderMark source.toList)).map Line.ofPiece := by
  rw [sourceLines, lines, List.map_map]
  exact List.map_congr_left fun piece _ => Line.ofChars_withoutLineEnd piece

end Specimen.Template
