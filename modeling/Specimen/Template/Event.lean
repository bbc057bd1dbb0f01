/-
# Specimen.Template.Event — a tree as the walk around it.

A walk around a tree enters each node, walks around its children in order, and leaves it again.  The
list of these events is another form of the tree: an event carries the node's label, which is all of
the node but its children, and entering and leaving match like brackets.
-/
import Specimen.Template.Node

namespace Specimen.Template

/-- What a node is, its children left out. -/
inductive Label where
  | lineBreak
  | block (head : Head)
  | container
  deriving DecidableEq, Repr

/-- A step of the walk. -/
inductive Event where
  | enter (label : Label)
  | leave (label : Label)
  deriving DecidableEq, Repr

namespace Node

/-- The label of a node. -/
def label : Node → Label
  | lineBreak => .lineBreak
  | block head _ => .block head
  | container _ => .container

mutual

/-- The walk around a tree. -/
def events : Node → List Event
  | lineBreak => [.enter .lineBreak, .leave .lineBreak]
  | block head nodes => .enter (.block head) :: (eventsIn nodes ++ [.leave (.block head)])
  | container nodes => .enter .container :: (eventsIn nodes ++ [.leave .container])

/-- The walks around several trees, one after the other. -/
def eventsIn : List Node → List Event
  | [] => []
  | node :: nodes => events node ++ eventsIn nodes

end

end Node

end Specimen.Template
