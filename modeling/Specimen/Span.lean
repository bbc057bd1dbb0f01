/-
# Specimen.Span — ranges of source lines, and how they are cut out.

A span names lines by number.  Cutting it out of a source takes one level of indentation off each
of its lines and leaves everything else as it is: every line keeps its own line end, and a span that
reaches past the end gives the lines there are.  One level is a single tab, or as many blanks as the
indentation width says; a line that begins with neither keeps its indentation.
-/
import Specimen.Text.Lines

namespace Specimen

open Text

/-- The lines from `startLine` up to but not including `startLine + lineCount`, counted from
zero. -/
structure Span where
  startLine : Nat
  lineCount : Nat
  deriving DecidableEq, Repr

/-- Takes one level of indentation off a line: a leading tab, or else `width` leading blanks. -/
def outdent (width : Nat) (line : List Char) : List Char :=
  match line with
  | '\t' :: rest => rest
  | _ => if width ≤ (line.takeWhile (· = ' ')).length then line.drop width else line

/-- The text of a span, taken out one level. -/
def Span.cut (span : Span) (width : Nat) (source : String) : String :=
  let wanted := ((pieces source.toList).drop span.startLine).take span.lineCount
  String.ofList (wanted.flatMap (outdent width))

end Specimen
