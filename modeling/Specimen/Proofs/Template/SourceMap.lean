/-
# Specimen.Proofs.Template.SourceMap — line breaks as a source map.

Nothing in a tree records where its nodes come from, except that every line of the source leaves one
line break.  That is enough: the number of line breaks before a block is the number of the line that
the block was made from, and the line breaks in the block are those of the lines from there on.
`blocks_span_lines` states this for blocks at any depth.
-/
import Specimen.Proofs.Template.Placement

namespace Specimen.Template

/-! ## Nodes and the line breaks before them -/

/-- A node stands among the given trees or anywhere below them, and so many line breaks come before
it when the trees are walked in order. -/
inductive Occurs : List Node → Nat → Node → Prop
  | here {node : Node} {nodes : List Node} : Occurs (node :: nodes) 0 node
  | inside {above node : Node} {nodes : List Node} {k : Nat} :
      Occurs above.children k node → Occurs (above :: nodes) k node
  | after {before node : Node} {nodes : List Node} {k : Nat} :
      Occurs nodes k node → Occurs (before :: nodes) (before.lineBreaks + k) node

variable {lines : List Line}

/-- Each of the trees is the node of a line or the line break of one; the numbers of all lines that
leave their line breaks there are listed beside. -/
inductive Marked (lines : List Line) : List Node → List Nat → Prop
  | nil : Marked lines [] []
  | own {nodes : List Node} {numbers : List Nat} (i : Nat) :
      Marked lines nodes numbers → Marked lines (.lineBreak :: nodes) (i :: numbers)
  | line {nodes : List Node} {numbers : List Nat} (i : Nat) :
      Marked lines nodes numbers → Marked lines (node lines i :: nodes) (markers lines i ++ numbers)

theorem marked_map_node (is : List Nat) :
    Marked lines (is.map (node lines)) (is.flatMap (markers lines)) := by
  induction is with
  | nil => exact .nil
  | cons i is ih => exact .line i ih

/-- Below a node, its line is marked and then the lines of its children. -/
theorem marked_children (lines : List Line) (i : Nat) :
    (node lines i).children = [] ∨ Marked lines (node lines i).children (markers lines i) := by
  cases kind : isStructural lines i with
  | true =>
      rw [node_of_structural kind, markers_eq]
      exact .inr (.own i (marked_map_node _))
  | false =>
      rw [node_of_not_structural kind, markers_of_not_structural kind, Line.keptNode]
      cases (lineAt lines i).isBlank with
      | true => exact .inl rfl
      | false => exact .inr (.own i .nil)

/-! ## Counting -/

theorem lineBreaksIn_map_node {is : List Nat}
    (h : ∀ i ∈ is, (node lines i).lineBreaks = (markers lines i).length) :
    Node.lineBreaksIn (is.map (node lines)) = (is.flatMap (markers lines)).length := by
  induction is with
  | nil => rfl
  | cons i is ih =>
      have others := ih fun j member => h j (List.mem_cons_of_mem i member)
      rw [List.map_cons, Node.lineBreaksIn, h i List.mem_cons_self, others, List.flatMap_cons,
        List.length_append]

/-- A node has as many line breaks as lines leave theirs in it. -/
theorem lineBreaks_node (i : Nat) :
    (node lines i).lineBreaks = (markers lines i).length := by
  induction i using markers.induct lines with
  | case1 i ih =>
      cases kind : isStructural lines i with
      | true =>
          have below := lineBreaksIn_map_node fun j member => ih ⟨j, member⟩
          rw [node_of_structural kind, markers_eq, Node.lineBreaks, Node.lineBreaksIn, below,
            List.length_cons, Nat.add_comm]
          rfl
      | false =>
          rw [node_of_not_structural kind, markers_of_not_structural kind, lineBreaks_keptNode]
          rfl

/-! ## From a block to its lines -/

/-- A block below marked trees is the node of a line, and that line's place in the list of numbers
is given by the line breaks before the block. -/
theorem Marked.block {nodes : List Node} {numbers : List Nat} {k : Nat} {head : Head}
    {body : List Node} (marked : Marked lines nodes numbers)
    (occurs : Occurs nodes k (.block head body)) :
    ∃ i before after, numbers = before ++ markers lines i ++ after ∧ before.length = k ∧
      .block head body = node lines i := by
  generalize shape : Node.block head body = found at occurs
  -- along the way to the block, the trees at every depth stay marked
  induction occurs generalizing numbers with
  | here =>
      cases marked with
      | own => cases shape
      | @line _ numbers i => exact ⟨i, [], numbers, rfl, rfl, rfl⟩
  | @inside above _ nodes _ occurs ih =>
      cases marked with
      | own => cases occurs
      | @line _ numbers i =>
          rcases marked_children lines i with childless | below
          · rw [childless] at occurs
            cases occurs
          · obtain ⟨j, before, after, rest, size, same⟩ := ih below shape
            refine ⟨j, before, after ++ numbers, ?_, size, same⟩
            rw [rest, List.append_assoc]
  | after _ ih =>
      cases marked with
      | @own _ numbers i marked =>
          obtain ⟨j, before, after, rfl, size, same⟩ := ih marked shape
          refine ⟨j, i :: before, after, rfl, ?_, same⟩
          rw [List.length_cons, size, Node.lineBreaks, Nat.add_comm]
      | @line _ numbers i marked =>
          obtain ⟨j, before, after, rfl, size, same⟩ := ih marked shape
          refine ⟨j, markers lines i ++ before, after, ?_, ?_, same⟩
          · simp only [List.append_assoc]
          · rw [List.length_append, size, lineBreaks_node]

/-- If all lines are marked in order, a block is the node of the line whose number is the number of
line breaks before it, and the lines marked in it follow one another from there. -/
theorem Marked.consecutive {nodes : List Node} {n k : Nat} {head : Head} {body : List Node}
    (marked : Marked lines nodes (List.range' 0 n)) (occurs : Occurs nodes k (.block head body)) :
    .block head body = node lines k ∧ markers lines k = List.range' k (Node.lineBreaksIn body) := by
  obtain ⟨i, before, after, split, size, same⟩ := marked.block occurs
  have count : (markers lines i).length = Node.lineBreaksIn body := by
    rw [← lineBreaks_node, ← same, Node.lineBreaks]
  rw [List.append_assoc] at split
  obtain ⟨m, -, rfl, rest⟩ := List.range'_eq_append_iff.mp split
  obtain ⟨c, -, run, -⟩ := List.range'_eq_append_iff.mp rest.symm
  rw [List.length_range'] at size
  subst size
  rw [run, List.length_range'] at count
  subst count
  rw [Nat.mul_one, Nat.zero_add] at run
  -- the first line marked in a node is the node's own
  have first : (markers lines i).head? = some i := by rw [markers_eq]; rfl
  rw [run, List.head?_range'] at first
  obtain rfl : m = i := by
    split at first
    · contradiction
    · exact Option.some.inj first
  exact ⟨same, run⟩

/-! ## Templates -/

/-- The line gives a block this head: by its content if it is structural, and as plain text if it is
kept by a verbatim block. -/
def GivesHead (lines : List Line) (k : Nat) (head : Head) : Prop :=
  (isStructural lines k = true ∧ Head.ofContent (lineAt lines k).content = .ok head) ∨
    (isStructural lines k = false ∧ (lineAt lines k).isBlank = false ∧
      head = .markup .text (String.ofList (lineAt lines k).content))

/-- The block was made from line `k`, and its line breaks are those of the lines from there on. -/
structure SpansLines (lines : List Line) (k : Nat) (head : Head) (nodes : List Node) : Prop where
  first : nodes.head? = some .lineBreak
  /-- The break of the opening line can be left out of the count. -/
  unsaturated : Node.lineBreaksIn nodes = Node.bodyLineCount nodes + 1
  given : GivesHead lines k head
  node_eq : .block head nodes = node lines k
  markers_eq : markers lines k = List.range' k (Node.lineBreaksIn nodes)

theorem unsaturated_of_first {nodes : List Node} (first : nodes.head? = some .lineBreak) :
    Node.lineBreaksIn nodes = Node.bodyLineCount nodes + 1 := by
  cases nodes with
  | nil => contradiction
  | cons node nodes =>
      obtain rfl := Option.some.inj first
      rw [Node.bodyLineCount, Node.lineBreaksIn, Node.lineBreaks]
      omega

/-- What the node of a line looks like, if it is a block. -/
theorem first_and_head_of_node {k : Nat} {head : Head} {nodes : List Node}
    (same : .block head nodes = node lines k)
    (heads : isStructural lines k = true →
      Head.ofContent (lineAt lines k).content = .ok (lineAt lines k).head) :
    nodes.head? = some .lineBreak ∧ GivesHead lines k head := by
  cases kind : isStructural lines k with
  | true =>
      rw [node_of_structural kind] at same
      obtain ⟨rfl, rfl⟩ := Node.block.inj same
      exact ⟨rfl, .inl ⟨kind, heads kind⟩⟩
  | false =>
      rw [node_of_not_structural kind, Line.keptNode] at same
      cases blank : (lineAt lines k).isBlank with
      | true => simp [blank] at same
      | false =>
          rw [blank, if_neg Bool.false_ne_true] at same
          obtain ⟨rfl, rfl⟩ := Node.block.inj same
          exact ⟨rfl, .inr ⟨kind, blank, rfl⟩⟩

/-- All lines of a template are marked in it, in order. -/
theorem Placed.marked {n : Nat} {nodes : List Node} (placed : Placed lines none 0 n nodes) :
    Marked lines nodes (List.range' 0 n) := by
  rw [placed.nodes_eq, ← placed.markers_eq]
  exact marked_map_node _

/-- A block of a template spans the lines from the one on whose number of line breaks precede it. -/
theorem spansLines_of_occurs {source : String} {root : Node} (h : parse source = .ok root)
    {k : Nat} {head : Head} {nodes : List Node}
    (occurs : Occurs root.children k (.block head nodes)) :
    SpansLines (sourceLines source) k head nodes := by
  obtain ⟨all, rfl, placed⟩ := placed_of_parse h
  obtain ⟨same, run⟩ := placed.marked.consecutive occurs
  obtain ⟨first, gives⟩ := first_and_head_of_node same fun structural =>
    placed.heads k (Nat.zero_le k) (by simpa using lt_length_of_structural structural) structural
  exact ⟨first, unsaturated_of_first first, gives, same, run⟩

/-- A block at any depth of a template, with `k` line breaks before it, was made from line `k` and
spans the lines from there on for which it has line breaks.  All line breaks together are as many as
the lines. -/
theorem blocks_span_lines {source : String} {root : Node} (h : parse source = .ok root) :
    root.lineBreaks = (sourceLines source).length ∧
      ∀ k head nodes, Occurs root.children k (.block head nodes) →
        SpansLines (sourceLines source) k head nodes := by
  refine ⟨?_, fun k head nodes occurs => spansLines_of_occurs h occurs⟩
  obtain ⟨all, rfl, placed⟩ := placed_of_parse h
  rw [Node.lineBreaks, placed.nodes_eq, lineBreaksIn_map_node fun i _ => lineBreaks_node i,
    placed.markers_eq, List.length_range']

/-- In the small template, four lines stand before the text, and it keeps the two lines below it. -/
theorem blocks_span_lines_sample :
    parse sample = .ok sampleTree ∧
      SpansLines (sourceLines sample) 4 (.markup .text "Go")
        [.lineBreak, .block (.markup .text "- now") [.lineBreak], .lineBreak] := by
  have occurs : Occurs sampleTree.children (2 + (1 + (1 + 0))) (.block (.markup .text "Go")
      [.lineBreak, .block (.markup .text "- now") [.lineBreak], .lineBreak]) := by
    apply Occurs.after
    apply Occurs.inside
    apply Occurs.after
    apply Occurs.inside
    apply Occurs.after
    exact .here
  exact ⟨parse_sample, (blocks_span_lines parse_sample).2 4 _ _ occurs⟩

end Specimen.Template
