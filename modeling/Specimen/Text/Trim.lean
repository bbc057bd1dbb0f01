/-
# Specimen.Text.Trim — white space at the ends of a text.

Texts are handled as lists of characters.  A trim removes the longest run of white space at one
end, or at both; what it leaves starts (or ends) with a character that is not white space.
-/
import Specimen.Unicode.Class

namespace Specimen.Text

open Unicode

/-- The text without the white space in front. -/
def trimStart (cs : List Char) : List Char := cs.dropWhile isWhiteSpace

/-- The text without the white space at its end. -/
def trimEnd (cs : List Char) : List Char := (cs.reverse.dropWhile isWhiteSpace).reverse

/-- The text without the white space at both ends. -/
def trim (cs : List Char) : List Char := trimEnd (trimStart cs)

end Specimen.Text
