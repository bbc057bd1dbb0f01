/-
# Specimen.Template.Outline — from lines to a tree.

Lines are nested by indentation: a line that is indented deeper than the block before it belongs to
that block, one that is indented equally follows it, and one that is indented less closes every
deeper block and must then meet a block of exactly its own indentation.  Text, comments and embedded
engines keep all deeper lines as they are, and a blank line never opens or closes anything.

While lines are read, the blocks that can still grow form a stack, the innermost first.  A block
enters its parent when it is closed.  The first line that does not fit ends the reading; lines
after it are not looked at.
-/
import Specimen.Template.Line
import Specimen.Text.Lines

namespace Specimen.Template

open Text

/-! ## Faults -/

/-- Why a source is no template.  Lines are counted from one. -/
inductive ParseError where
  /-- The line meets no open block of its own indentation. -/
  | malformedIndentation (line : Nat)
  /-- The line introduces a call and gives no code. -/
  | missingCode (line : Nat) (kind : CallKind)
  deriving DecidableEq, Repr

/-- The fault in words. -/
def ParseError.message : ParseError → String
  | malformedIndentation line => s!"line {line}: malformed indentation"
  | missingCode line kind => s!"line {line}: expected code after `{kind.indicator}`"

/-! ## Open blocks -/

/-- A block that can still grow. -/
structure OpenBlock where
  /-- The indentation of the line that opened it. -/
  indent : Nat
  head : Head
  /-- The children so far, in the order of the source. -/
  children : Array Node
  deriving Repr

namespace OpenBlock

/-- The block with one more child. -/
def attach (block : OpenBlock) (node : Node) : OpenBlock :=
  { block with children := block.children.push node }

/-- The finished block. -/
def close (block : OpenBlock) : Node := .block block.head block.children.toList

end OpenBlock

/-- A template as far as it has been read: what stands at the top level, and the open blocks,
innermost first. -/
structure Outline where
  top : Array Node
  blocks : List OpenBlock
  deriving Repr

namespace Outline

/-- Nothing has been read. -/
def empty : Outline := ⟨#[], []⟩

/-- Adds a node to the innermost open block, or at the top level if none is open. -/
def attach (outline : Outline) (node : Node) : Outline :=
  match outline.blocks with
  | [] => { outline with top := outline.top.push node }
  | block :: outer => { outline with blocks := block.attach node :: outer }

/-- Opens a block.  The line that opens it leaves its line break there. -/
def openBlock (outline : Outline) (indent : Nat) (head : Head) : Outline :=
  { outline with blocks := ⟨indent, head, #[.lineBreak]⟩ :: outline.blocks }

/-- Closes the innermost block and its parents until one of the given indentation has been closed.
There is none if the search meets a block that is indented less, or runs out of blocks. -/
def closeTo (indent : Nat) (top : Array Node) (block : OpenBlock) :
    List OpenBlock → Option Outline
  | [] => if block.indent = indent then some ⟨top.push block.close, []⟩ else none
  | parent :: outer =>
    if indent < block.indent then closeTo indent top (parent.attach block.close) outer
    else if block.indent = indent then some ⟨top, parent.attach block.close :: outer⟩
    else none

/-- Makes room for a block of the given indentation: inside the innermost open block if that one is
indented less, and otherwise beside the open block of the same indentation. -/
def enter (outline : Outline) (indent : Nat) : Option Outline :=
  match outline.blocks with
  | [] => some outline
  | block :: outer =>
    if block.indent < indent then some outline else closeTo indent outline.top block outer

/-- Closes the innermost block and all its parents. -/
def closeAll (top : Array Node) (block : OpenBlock) : List OpenBlock → Array Node
  | [] => top.push block.close
  | parent :: outer => closeAll top (parent.attach block.close) outer

/-- The tree, once there are no more lines. -/
def finish (outline : Outline) : Node :=
  match outline.blocks with
  | [] => .container outline.top.toList
  | block :: outer => .container (closeAll outline.top block outer).toList

/-! ## Reading lines -/

/-- Whether a line of this indentation is kept as it is by the innermost open block. -/
def keeps (outline : Outline) (indent : Nat) : Bool :=
  match outline.blocks with
  | [] => false
  | block :: _ => block.head.isVerbatim && block.indent < indent

/-- Takes in one more line, whose number is given for the report of a fault.  A line that is both
out of place and without its code is reported as out of place. -/
def addLine (outline : Outline) (number : Nat) (line : Line) : Except ParseError Outline :=
  if line.isBlank then .ok (outline.attach .lineBreak)
  else if outline.keeps line.indent then
    .ok (outline.attach (.block (.markup .text (String.ofList line.content)) [.lineBreak]))
  else
    match outline.enter line.indent with
    | none => .error (.malformedIndentation number)
    | some outline =>
      match Head.ofContent line.content with
      | .error kind => .error (.missingCode number kind)
      | .ok head => .ok (outline.openBlock line.indent head)

/-- Takes in lines from the given number on, up to the first that is at fault. -/
def addLines (outline : Outline) (number : Nat) : List Line → Except ParseError Outline
  | [] => .ok outline
  | line :: lines =>
    match outline.addLine number line with
    | .error fault => .error fault
    | .ok outline => addLines outline (number + 1) lines

end Outline

/-! ## Templates -/

/-- The lines of a source, which may begin with a byte-order mark. -/
def sourceLines (source : String) : List Line :=
  (lines (withoutByteOrderMark source.toList)).map Line.ofChars

/-- The tree of a template.  Its root is a container. -/
def parse (source : String) : Except ParseError Node :=
  (Outline.empty.addLines 1 (sourceLines source)).map Outline.finish

end Specimen.Template
