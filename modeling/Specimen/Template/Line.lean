/-
# Specimen.Template.Line — what one line of a template says.

A line is its indentation, counted in blanks and tabs, and its content, which is the rest without
the white space at its end.  A line without content is blank.  The first characters of the content
are its indicator and decide what kind of block it opens:

    - code        a call            | text      text, also with a quote in place of the bar
    = code        its output        / note      a comment
    == code       unescaped         <p>         markup, kept as it stands
    name:         embedded engine   anything    a tag

An indicator of code needs code behind it; that is the only way in which a line can be wrong by
itself.
-/
import Specimen.Template.Node
import Specimen.Text.Trim

namespace Specimen.Template

open Unicode Text

/-! ## Indentation and content -/

/-- A line of a template. -/
structure Line where
  /-- How many blanks and tabs stand in front. -/
  indent : Nat
  /-- The rest, without the white space at its end. -/
  content : List Char
  deriving DecidableEq, Repr

/-- Blanks and tabs indent a line; no other white space does. -/
def isIndentation (c : Char) : Bool := c = ' ' || c = '\t'

theorem isWhiteSpace_of_isIndentation {c : Char} (h : isIndentation c = true) :
    isWhiteSpace c = true := by
  rw [isIndentation, Bool.or_eq_true, decide_eq_true_eq, decide_eq_true_eq] at h
  rcases h with rfl | rfl <;> decide

namespace Line

/-- Reads a line, given without its newline. -/
def ofChars (cs : List Char) : Line where
  indent := (cs.takeWhile isIndentation).length
  content := trimEnd (cs.dropWhile isIndentation)

/-- A line is blank if it has no content. -/
def isBlank (line : Line) : Bool := line.content.isEmpty

theorem ofChars_append {front text : List Char}
    (indentation : ∀ c ∈ front, isIndentation c = true)
    (starts : ∀ c ∈ text.head?, isIndentation c = false) :
    ofChars (front ++ text) = ⟨front.length, trimEnd text⟩ := by
  have stops : text.takeWhile isIndentation = [] ∧ text.dropWhile isIndentation = text := by
    cases text with
    | nil => exact ⟨rfl, rfl⟩
    | cons first rest =>
        have other : isIndentation first = false := starts first rfl
        simp [other]
  rw [ofChars, List.takeWhile_append_of_pos indentation, List.dropWhile_append_of_pos indentation,
    stops.1, stops.2, List.append_nil]

end Line

/-! ## Indicators -/

/-- The characters that introduce a call. -/
def CallKind.indicator : CallKind → String
  | .control => "-"
  | .output => "="
  | .unescapedOutput => "=="

/-- A character of an engine's name. -/
def isNameChar (c : Char) : Bool := isAlphanumeric c || c = '_'

/-- The text without one blank in front. -/
def withoutBlank : List Char → List Char
  | ' ' :: rest => rest
  | text => text

/-- The name of an embedded engine: the content ends with a colon, and before it stands a name of
letters, numbers and low lines.  White space between the two does not belong to the name. -/
def engineName? (content : List Char) : Option (List Char) :=
  if content.getLast? = some ':' then
    let name := trimEnd content.dropLast
    if name ≠ [] ∧ name.all isNameChar then some name else none
  else none

namespace Head

/-- The head of a call, or its kind if no code follows the indicator. -/
def ofCode (kind : CallKind) (rest : List Char) : Except CallKind Head :=
  if trim rest = [] then .error kind else .ok (.call kind (String.ofList (trim rest)))

/-- The head that a line's content gives to a block.  Code that is missing is reported by the kind
of call that asks for it. -/
def ofContent : List Char → Except CallKind Head
  | '=' :: '=' :: rest => ofCode .unescapedOutput rest
  | '=' :: rest => ofCode .output rest
  | '-' :: rest => ofCode .control rest
  | '|' :: rest => .ok (.markup .text (String.ofList (withoutBlank rest)))
  | '\'' :: rest => .ok (.markup .text (String.ofList (withoutBlank rest)))
  | '/' :: rest => .ok (.markup .comment (String.ofList (trimStart rest)))
  | '<' :: rest => .ok (.markup .html (String.ofList ('<' :: rest)))
  | content =>
    match engineName? content with
    | some name => .ok (.markup .embedded (String.ofList name))
    | none => .ok (.markup .tag (String.ofList content))

/-- Text, comments and embedded engines take the deeper lines below them as they are. -/
def isVerbatim : Head → Bool
  | .markup .text _ => true
  | .markup .comment _ => true
  | .markup .embedded _ => true
  | _ => false

end Head

end Specimen.Template
