/-
# Specimen.Unicode.Class — the classes of characters that templates distinguish.

Three classes decide how a template is read.  White space is what a trim removes and what
separates a call from its argument.  Alphanumeric characters make up the names of embedded
engines.  Word characters decide where a word begins and ends.

The first two classes are those of Unicode 17.  Words keep to Unicode 16: a letter that is younger
may name an engine, but it belongs to no word.
-/
import Specimen.Unicode.Alphabetic
import Specimen.Unicode.Mark
import Specimen.Unicode.Number
import Specimen.Unicode.Recent

namespace Specimen.Unicode

/-! ## White space -/

/-- The code points with the property `White_Space`. -/
def whiteSpace : Ranges := ⟨
  [(0x9, 0xd), (0x20, 0x20), (0x85, 0x85), (0xa0, 0xa0), (0x1680, 0x1680), (0x2000, 0x200a),
    (0x2028, 0x2029), (0x202f, 0x202f), (0x205f, 0x205f), (0x3000, 0x3000)]⟩

/-- White space: blanks, tabs and line ends, and the spaces of typography.  The zero-width space,
the byte-order mark and the information separators do not belong to it. -/
def isWhiteSpace (c : Char) : Bool := whiteSpace.contains c.toNat

/-! ## Letters and numbers -/

/-- A letter or a number of any script. -/
def isAlphanumeric (c : Char) : Bool := isAlphabetic c || isDecimalDigit c || isOtherNumber c

/-! ## Words -/

/-- The code points of the general category `Pc`: the low line and its relatives. -/
def connector : Ranges := ⟨
  [(0x5f, 0x5f), (0x203f, 0x2040), (0x2054, 0x2054), (0xfe33, 0xfe34), (0xfe4d, 0xfe4f),
    (0xff3f, 0xff3f)]⟩

/-- The code points with the property `Join_Control`. -/
def joinControl : Ranges := ⟨[(0x200c, 0x200d)]⟩

/-- A character that words are made of: a letter, a mark, a decimal digit, a connector or a
joiner of Unicode 16.  Number signs that are not decimal digits are not among them. -/
def isWord (c : Char) : Bool :=
  (isAlphabetic c || isMark c || isDecimalDigit c || connector.contains c.toNat ||
    joinControl.contains c.toNat) && !isRecent c

end Specimen.Unicode
