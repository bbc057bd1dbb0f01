/-
# Specimen.Json.Lexeme — the parts of JSON text that have no parts.

A reader takes the text from some place on and gives what it read together with the text behind
it, or the first fault it meets.  Here are the readers for white space, for the words `null`, `true`
and `false`, for strings and for numbers.

There are two ways to read.  A value that is wanted is read in full: escapes in strings must make
characters, and numbers must be in range.  A value that nobody asks for is skipped: it must be
formed by the rules, but half of a surrogate pair and a number of any size are let through.  Where
the text ends inside a number, a wanted number is cut off and a skipped one is malformed.
-/
import Specimen.Json.Value

namespace Specimen.Json

/-- What is wrong with a JSON text. -/
inductive Fault where
  /-- The text breaks the rules of JSON. -/
  | malformed
  /-- The text ends before the value does. -/
  | truncated
  /-- The value is not of the form that is asked for. -/
  | mismatch
  deriving DecidableEq, Repr

/-- The two ways to read a value. -/
inductive Care where
  | wanted
  | skipped
  deriving DecidableEq, Repr

/-! ## White space and words -/

/-- White space between lexemes: blank, tab, line feed and carriage return. -/
def isBlank (c : Char) : Bool := c = ' ' || c = '\t' || c = '\n' || c = '\r'

/-- The text without the white space in front. -/
def skipBlanks (cs : List Char) : List Char := cs.dropWhile isBlank

/-- Reads exactly these characters. -/
def readWord : (word text : List Char) → Except Fault (List Char)
  | [], rest => .ok rest
  | _ :: _, [] => .error .truncated
  | c :: word, d :: rest => if c = d then readWord word rest else .error .malformed

/-! ## Escapes -/

/-- The value of a hexadecimal digit. -/
def hexValue? (c : Char) : Option Nat :=
  if '0' ≤ c ∧ c ≤ '9' then some (c.toNat - '0'.toNat)
  else if 'a' ≤ c ∧ c ≤ 'f' then some (c.toNat - 'a'.toNat + 10)
  else if 'A' ≤ c ∧ c ≤ 'F' then some (c.toNat - 'A'.toNat + 10)
  else none

/-- The number of bytes that a text takes in UTF-8. -/
def byteLength (cs : List Char) : Nat := (String.ofList cs).utf8ByteSize

/-- Reads four hexadecimal digits.  Text that cannot hold four digits is cut off. -/
def readHex : List Char → Except Fault (Nat × List Char)
  | a :: b :: c :: d :: rest =>
    match hexValue? a, hexValue? b, hexValue? c, hexValue? d with
    | some a, some b, some c, some d => .ok (((a * 16 + b) * 16 + c) * 16 + d, rest)
    | _, _, _, _ => .error .malformed
  | short => .error (if byteLength short < 4 then .truncated else .malformed)

/-- The first halves of surrogate pairs. -/
def isHighSurrogate (n : Nat) : Bool := 0xd800 ≤ n && n < 0xdc00

/-- The second halves of surrogate pairs. -/
def isLowSurrogate (n : Nat) : Bool := 0xdc00 ≤ n && n < 0xe000

/-- Reads the second half of a surrogate pair, an escape of its own. -/
def readSecondHalf (high : Nat) : List Char → Except Fault (Char × List Char)
  | [] => .error .truncated
  | ['\\'] => .error .truncated
  | '\\' :: 'u' :: rest =>
    match readHex rest with
    | .error fault => .error fault
    | .ok (low, rest) =>
      if isLowSurrogate low then
        .ok (Char.ofNat ((high - 0xd800) * 0x400 + (low - 0xdc00) + 0x10000), rest)
      else .error .malformed
  | _ => .error .malformed

/-- Reads the rest of an escape by number.  In a skipped string the number alone must be formed by
the rules; which character it stands for does not matter there. -/
def readNumberedEscape (care : Care) (cs : List Char) : Except Fault (Char × List Char) :=
  match readHex cs with
  | .error fault => .error fault
  | .ok (n, rest) =>
    match care with
    | .skipped => .ok (Char.ofNat n, rest)
    | .wanted =>
      if isLowSurrogate n then .error .malformed
      else if isHighSurrogate n then readSecondHalf n rest
      else .ok (Char.ofNat n, rest)

/-- The character of an escape by letter. -/
def lettered? (c : Char) : Option Char :=
  match c with
  | '"' => some '"'
  | '\\' => some '\\'
  | '/' => some '/'
  | 'b' => some '\x08'
  | 'f' => some '\x0c'
  | 'n' => some '\n'
  | 'r' => some '\r'
  | 't' => some '\t'
  | _ => none

/-- Reads what follows a backslash. -/
def readEscape (care : Care) : List Char → Except Fault (Char × List Char)
  | [] => .error .truncated
  | c :: rest =>
    if c = 'u' then readNumberedEscape care rest
    else
      match lettered? c with
      | some d => .ok (d, rest)
      | none => .error .malformed

theorem readHex_length {cs rest : List Char} {n : Nat} (h : readHex cs = .ok (n, rest)) :
    rest.length < cs.length := by
  unfold readHex at h
  split at h
  · split at h
    · cases h; simp only [List.length_cons]; omega
    · cases h
  · cases h

theorem readSecondHalf_length {high : Nat} {cs rest : List Char} {c : Char}
    (h : readSecondHalf high cs = .ok (c, rest)) : rest.length < cs.length := by
  unfold readSecondHalf at h
  split at h
  · cases h
  · cases h
  · split at h
    · cases h
    · rename_i hex
      split at h
      · simp only [Except.ok.injEq, Prod.mk.injEq] at h
        obtain ⟨-, rfl⟩ := h
        have := readHex_length hex
        simp only [List.length_cons]; omega
      · cases h
  · cases h

theorem readNumberedEscape_length {care : Care} {cs rest : List Char} {c : Char}
    (h : readNumberedEscape care cs = .ok (c, rest)) : rest.length < cs.length := by
  unfold readNumberedEscape at h
  split at h
  · cases h
  · rename_i hex
    have shorter := readHex_length hex
    split at h
    · simp only [Except.ok.injEq, Prod.mk.injEq] at h
      exact h.2 ▸ shorter
    · split at h
      · cases h
      · split at h
        · exact Nat.lt_trans (readSecondHalf_length h) shorter
        · simp only [Except.ok.injEq, Prod.mk.injEq] at h
          exact h.2 ▸ shorter

/-- An escape takes some of the text. -/
theorem readEscape_length {care : Care} {cs rest : List Char} {c : Char}
    (h : readEscape care cs = .ok (c, rest)) : rest.length < cs.length := by
  unfold readEscape at h
  split at h
  · cases h
  · split at h
    · have := readNumberedEscape_length h
      simp only [List.length_cons]; omega
    · split at h
      · cases h; simp
      · cases h

/-! ## Strings -/

/-- Reads a string from behind its opening quote; `before` are the characters read so far, the
latest first. -/
def readCharacters (care : Care) (before : List Char) (text : List Char) :
    Except Fault (List Char × List Char) :=
  match text with
  | [] => .error .truncated
  | c :: rest =>
    if c = '"' then .ok (before.reverse, rest)
    else if c = '\\' then
      match _ : readEscape care rest with
      | .error fault => .error fault
      | .ok (d, behind) => readCharacters care (d :: before) behind
    else if c < ' ' then .error .malformed
    else readCharacters care (c :: before) rest
termination_by text.length
decreasing_by
  · have := readEscape_length ‹readEscape care rest = _›
    simp only [List.length_cons]; omega
  · simp

/-- Reads a string from behind its opening quote. -/
def readString (care : Care) (text : List Char) : Except Fault (String × List Char) :=
  (readCharacters care [] text).map fun (characters, rest) => (String.ofList characters, rest)

/-! ## Numbers -/

/-- The fault of a number that the end of the text cuts off. -/
def Care.cutOff : Care → Fault
  | .wanted => .truncated
  | .skipped => .malformed

/-- Reads one digit or more. -/
def readDigits (care : Care) (cs : List Char) : Except Fault (List Char × List Char) :=
  match cs with
  | [] => .error care.cutOff
  | c :: _ =>
    if c.isDigit then .ok (cs.takeWhile Char.isDigit, cs.dropWhile Char.isDigit)
    else .error .malformed

/-- Reads the digits in front of the point.  A zero is followed by no further digit. -/
def readWhole (care : Care) (cs : List Char) : Except Fault (List Char × List Char) :=
  match readDigits care cs with
  | .error fault => .error fault
  | .ok ('0' :: _ :: _, _) => .error .malformed
  | .ok read => .ok read

/-- Reads the point and the digits behind it, if there is a point. -/
def readFraction (care : Care) : List Char → Except Fault (Option (List Char) × List Char)
  | '.' :: rest => (readDigits care rest).map fun (digits, rest) => (some digits, rest)
  | rest => .ok (none, rest)

/-- Reads the sign and the digits of an exponent. -/
def readPower (care : Care) : List Char → Except Fault (Int × List Char)
  | '+' :: rest => (readDigits care rest).map fun (ds, rest) => ((Nat.ofDigitChars 10 ds 0 : Nat), rest)
  | '-' :: rest => (readDigits care rest).map fun (ds, rest) => (-(Nat.ofDigitChars 10 ds 0 : Nat), rest)
  | rest => (readDigits care rest).map fun (ds, rest) => ((Nat.ofDigitChars 10 ds 0 : Nat), rest)

/-- Reads an exponent, if there is one. -/
def readExponent (care : Care) (cs : List Char) : Except Fault (Option Int × List Char) :=
  match cs with
  | [] => .ok (none, [])
  | c :: rest =>
    if c = 'e' ∨ c = 'E' then
      (readPower care rest).map fun (power, rest) => (some power, rest)
    else .ok (none, c :: rest)

/-- Reads a number, of any size. -/
def readAnyNumeral (care : Care) (cs : List Char) : Except Fault (Numeral × List Char) := do
  let (negative, rest) := match cs with
    | '-' :: rest => (true, rest)
    | rest => (false, rest)
  let (whole, rest) ← readWhole care rest
  let (fraction, rest) ← readFraction care rest
  let (exponent, rest) ← readExponent care rest
  .ok (⟨negative, whole, fraction, exponent⟩, rest)

/-- Reads a number.  One that is wanted must be in the range of double precision. -/
def readNumeral (care : Care) (cs : List Char) : Except Fault (Numeral × List Char) :=
  match readAnyNumeral care cs with
  | .error fault => .error fault
  | .ok (numeral, rest) =>
    if care = .wanted ∧ numeral.overflows then .error .malformed else .ok (numeral, rest)

end Specimen.Json
