/-
# Specimen.Template.Visitor — walks around a tree.

A walk enters a node, walks around its children in order, and leaves the node again.  A visitor says
what is done whenever a node is entered or left; the walk hands the visitor's state from each visit
to the next.  Line breaks are counted that way, and the events of a tree can be written down that
way.
-/
import Specimen.Template.Event

namespace Specimen.Template

/-- What is done on a walk.  Whatever is not said leaves the state as it is. -/
structure Visitor (σ : Type) where
  enter : Node → σ → σ := fun _ state => state
  leave : Node → σ → σ := fun _ state => state

namespace Node

variable {σ : Type}

mutual

/-- Takes a visitor around a tree. -/
def traverse (visitor : Visitor σ) : Node → σ → σ
  | lineBreak, state => visitor.leave lineBreak (visitor.enter lineBreak state)
  | block head nodes, state =>
    let node := block head nodes
    visitor.leave node (traverseIn visitor nodes (visitor.enter node state))
  | container nodes, state =>
    let node := container nodes
    visitor.leave node (traverseIn visitor nodes (visitor.enter node state))

/-- Takes a visitor around several trees, one after the other. -/
def traverseIn (visitor : Visitor σ) : List Node → σ → σ
  | [], state => state
  | node :: nodes, state => traverseIn visitor nodes (traverse visitor node state)

end

theorem traverse_eq (visitor : Visitor σ) (node : Node) (state : σ) :
    node.traverse visitor state =
      visitor.leave node (traverseIn visitor node.children (visitor.enter node state)) := by
  cases node <;> rfl

end Node

namespace Visitor

/-- Writes the events down. -/
def recorder : Visitor (List Event) where
  enter node events := events ++ [.enter node.label]
  leave node events := events ++ [.leave node.label]

/-- Counts the line breaks. -/
def lineBreakCounter : Visitor Nat where
  enter node count := if node.isLineBreak then count + 1 else count

end Visitor

/-- The line breaks of several trees, as they are counted on a walk. -/
def Node.countLineBreaks (nodes : List Node) : Nat := traverseIn .lineBreakCounter nodes 0

end Specimen.Template
