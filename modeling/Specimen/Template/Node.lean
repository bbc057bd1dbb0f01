/-
# Specimen.Template.Node — the tree of a template.

A template is a tree of blocks.  The line that opens a block gives it its head; the deeper lines
below it give it children.  Between the blocks stand line breaks: every line of the source leaves
exactly one of them in the tree, the line that opens a block as that block's first child.  Counting
the line breaks below a node therefore counts the lines it spans, and nothing else in the tree
records positions.

Trees that no source produces are trees too: a container may stand anywhere, and a block need not
hold a line break.
-/

namespace Specimen.Template

/-- How a line of code takes part in the output. -/
inductive CallKind where
  /-- `- code`: run for its effect. -/
  | control
  /-- `= code`: run, its value written escaped. -/
  | output
  /-- `== code`: run, its value written as it is. -/
  | unescapedOutput
  deriving DecidableEq, Repr

/-- The kinds of lines that are not code. -/
inductive MarkupKind where
  | tag
  | text
  | comment
  | html
  /-- `css:`, `javascript:` and other embedded engines. -/
  | embedded
  deriving DecidableEq, Repr

/-- What the opening line says about a block. -/
inductive Head where
  | call (kind : CallKind) (code : String)
  | markup (kind : MarkupKind) (text : String)
  deriving DecidableEq, Repr

/-- A node of a template's tree. -/
inductive Node where
  | lineBreak
  | block (head : Head) (children : List Node)
  /-- A sequence of nodes without a line of its own; the root of a parsed template is one. -/
  | container (children : List Node)
  deriving Repr

namespace Node

/-- The nodes directly below; a line break has none. -/
def children : Node → List Node
  | lineBreak => []
  | block _ nodes => nodes
  | container nodes => nodes

/-- Whether the node is a line break. -/
def isLineBreak : Node → Bool
  | lineBreak => true
  | _ => false

/-! ## Counting lines -/

mutual

/-- The line breaks of a tree, at any depth. -/
def lineBreaks : Node → Nat
  | lineBreak => 1
  | block _ nodes => lineBreaksIn nodes
  | container nodes => lineBreaksIn nodes

/-- The line breaks of several trees together. -/
def lineBreaksIn : List Node → Nat
  | [] => 0
  | node :: nodes => lineBreaks node + lineBreaksIn nodes

end

/-- The number of lines below the line that opens a block with these children.  The opening line's
own break is among the children and is not counted; without any break there are no lines. -/
def bodyLineCount (nodes : List Node) : Nat := lineBreaksIn nodes - 1

@[simp]
theorem lineBreaksIn_append (a b : List Node) :
    lineBreaksIn (a ++ b) = lineBreaksIn a + lineBreaksIn b := by
  induction a with
  | nil => simp [lineBreaksIn]
  | cons node nodes ih => simp [lineBreaksIn, ih, Nat.add_assoc]

/-! ## Equality -/

mutual

/-- Equality of trees is decided node by node. -/
def decideEq : (a b : Node) → Decidable (a = b)
  | lineBreak, lineBreak => isTrue rfl
  | lineBreak, block .. => isFalse nofun
  | lineBreak, container _ => isFalse nofun
  | block .., lineBreak => isFalse nofun
  | block head nodes, block head' nodes' =>
    if sameHead : head = head' then
      match decideEqList nodes nodes' with
      | isTrue same => isTrue (by rw [sameHead, same])
      | isFalse differ => isFalse fun same => differ (by injection same)
    else isFalse fun same => sameHead (by injection same)
  | block .., container _ => isFalse nofun
  | container _, lineBreak => isFalse nofun
  | container _, block .. => isFalse nofun
  | container nodes, container nodes' =>
    match decideEqList nodes nodes' with
    | isTrue same => isTrue (by rw [same])
    | isFalse differ => isFalse fun same => differ (by injection same)

/-- Equality of lists of trees, in the same way. -/
def decideEqList : (a b : List Node) → Decidable (a = b)
  | [], [] => isTrue rfl
  | [], _ :: _ => isFalse nofun
  | _ :: _, [] => isFalse nofun
  | node :: nodes, node' :: nodes' =>
    match decideEq node node' with
    | isFalse differ => isFalse fun same => differ (by injection same)
    | isTrue first =>
      match decideEqList nodes nodes' with
      | isTrue rest => isTrue (by rw [first, rest])
      | isFalse differ => isFalse fun same => differ (by injection same)

end

instance : DecidableEq Node := decideEq

end Node

end Specimen.Template
