/-
# Specimen.Template.Stacks — an outline on plain stacks.

An `Outline` keeps each open block together with its indentation, and what stands at the top level
apart from the blocks.  Here lines are read into plain stacks: the open nodes on one, with the root
at its bottom, the indentations on another, and beside the two the indentation of a verbatim block,
while one is open.  Nothing but their use keeps the stacks in step, and an operation that finds
nothing to work on does nothing: a child is dropped where the innermost open node has no place for
children, and a node that is the only one left is not closed.

The stacks remember every operation with what it found, so that one can tell afterwards whether any
of them did nothing.
-/
import Specimen.Template.Outline

namespace Specimen.Template

/-- The node with one more child.  A line break has no place for children. -/
def Node.push? (node child : Node) : Option Node :=
  match node with
  | .lineBreak => none
  | .block head nodes => some (.block head (nodes ++ [child]))
  | .container nodes => some (.container (nodes ++ [child]))

/-- An operation on the open nodes, with the nodes that are open when it is called. -/
inductive Operation where
  | push (child : Node) (frames : List Node)
  | close (frames : List Node)
  deriving DecidableEq, Repr

/-- A template as far as it has been read.  All stacks have their innermost member first. -/
structure Stacks where
  /-- The open nodes; the last is the root. -/
  frames : List Node := [.container []]
  /-- The indentations of the open nodes but the root. -/
  indents : List Nat := []
  /-- The indentation of the verbatim block that takes the deeper lines. -/
  verbatim : Option Nat := none
  /-- All operations so far, the latest first. -/
  history : List Operation := []
  deriving Repr

namespace Stacks

/-- Adds a child to the innermost open node, if that has a place for it. -/
def push (state : Stacks) (child : Node) : Stacks :=
  { state with
    frames :=
      match state.frames with
      | [] => []
      | node :: outer => (node.push? child).getD node :: outer
    history := .push child state.frames :: state.history }

/-- Closes the innermost open node, unless it is the only one, and adds it to the next. -/
def close (state : Stacks) : Stacks :=
  let noted := { state with history := .close state.frames :: state.history }
  match state.frames with
  | node :: parent :: outer => { noted with frames := parent :: outer }.push node
  | _ => noted

/-- Opens a node, and leaves the break of its line there. -/
def openFrame (state : Stacks) (node : Node) : Stacks :=
  { state with frames := node :: state.frames }.push .lineBreak

@[simp]
theorem indents_close (state : Stacks) : state.close.indents = state.indents := by
  unfold close
  split <;> rfl

@[simp]
theorem verbatim_close (state : Stacks) : state.close.verbatim = state.verbatim := by
  unfold close
  split <;> rfl

theorem length_frames_close {state : Stacks} (several : 1 < state.frames.length) :
    state.close.frames.length + 1 = state.frames.length := by
  obtain ⟨_ | ⟨node, _ | ⟨parent, outer⟩⟩, indents, verbatim, history⟩ := state
  · contradiction
  · exact absurd several (Nat.lt_irrefl 1)
  · rfl

/-- Closes open nodes for as long as the innermost is indented deeper, but not the outermost. -/
def unwind (state : Stacks) (indent : Nat) : Stacks :=
  if 1 < state.indents.length ∧ state.indents.head?.any (indent < ·) then
    { state with indents := state.indents.drop 1 }.close.unwind indent
  else state
termination_by state.indents.length
decreasing_by simp; omega

/-- Makes room for a node of the given indentation and puts that on its stack. -/
def enter (state : Stacks) (number indent : Nat) : Except ParseError Stacks :=
  match state.indents.head? with
  | none => .ok { state with indents := indent :: state.indents }
  | some last =>
    if last < indent then .ok { state with indents := indent :: state.indents }
    else
      let room := state.unwind indent
      if room.indents.head? = some indent then .ok room.close
      else .error (.malformedIndentation number)

/-- Takes in one more line. -/
def readLine (state : Stacks) (number : Nat) (line : Line) : Except ParseError Stacks :=
  if line.isBlank then .ok (state.push .lineBreak)
  else if state.verbatim.any (· < line.indent) then
    .ok (state.push (.block (.markup .text (String.ofList line.content)) [.lineBreak]))
  else
    match { state with verbatim := none }.enter number line.indent with
    | .error fault => .error fault
    | .ok room =>
      match Head.ofContent line.content with
      | .error kind => .error (.missingCode number kind)
      | .ok head =>
        let verbatim := if head.isVerbatim then some line.indent else room.verbatim
        .ok ({ room with verbatim }.openFrame (.block head []))

/-- Takes in lines from the given number on, up to the first that is at fault. -/
def readLines (state : Stacks) (number : Nat) : List Line → Except ParseError Stacks
  | [] => .ok state
  | line :: lines =>
    match state.readLine number line with
    | .error fault => .error fault
    | .ok next => next.readLines (number + 1) lines

/-- Closes all open nodes but one. -/
def closeAll (state : Stacks) : Stacks :=
  if 1 < state.frames.length then state.close.closeAll else state
termination_by state.frames.length
decreasing_by
  have shorter := length_frames_close ‹_›
  omega

/-- The tree, once there are no more lines: the node that is left open, or an empty container if
there is none. -/
def finish (state : Stacks) : Node := state.closeAll.frames.head?.getD (.container [])

end Stacks

end Specimen.Template
