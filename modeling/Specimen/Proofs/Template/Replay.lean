/-
# Specimen.Proofs.Template.Replay — a tree from its events.

The events of a tree match like brackets.  Replayed with a stack of open nodes, they build the tree
again, and for that the leaving of a node need not say which node is left; so no two trees have the
same events.  `traversal_linearises` says this of walks, together with the order in which they meet
the nodes and with the count of the line breaks.
-/
import Specimen.Proofs.Template.Tour

namespace Specimen.Template

namespace Node

theorem events_eq (node : Node) :
    node.events = .enter node.label :: (eventsIn node.children ++ [.leave node.label]) := by
  cases node <;> rfl

theorem eventsIn_cons (node : Node) (nodes : List Node) :
    eventsIn (node :: nodes) =
      .enter node.label :: (eventsIn node.children ++ .leave node.label :: eventsIn nodes) := by
  rw [eventsIn, events_eq]
  simp

theorem eventsIn_singleton (node : Node) : eventsIn [node] = node.events := List.append_nil _

end Node

open Node

/-! ## Brackets -/

/-- Every entering is matched by a leaving with the same label, and what stands in between is
matched in itself. -/
inductive Bracketed : List Event → Prop
  | nil : Bracketed []
  | around {inside behind : List Event} (label : Label) : Bracketed inside → Bracketed behind →
      Bracketed (.enter label :: (inside ++ .leave label :: behind))

theorem bracketed_eventsIn (nodes : List Node) : Bracketed (eventsIn nodes) := by
  induction nodes using forest_induction with
  | nil => exact .nil
  | cons node nodes inside behind =>
      rw [eventsIn_cons]
      exact .around node.label inside behind

/-! ## Replaying -/

/-- The label of a node that is entered; none when a node is left. -/
def Event.entered? : Event → Option Label
  | enter label => some label
  | leave _ => none

/-- The node with a label and children.  A line break has no children. -/
def Label.node : Label → List Node → Node
  | lineBreak, _ => .lineBreak
  | block head, nodes => .block head nodes
  | container, nodes => .container nodes

theorem label_node_children (node : Node) : node.label.node node.children = node := by
  cases node <;> rfl

/-- A replay on its way: the trees that are complete in the innermost open node, and for each open
node, innermost first, its label and the trees that are complete beside it. -/
structure Replay where
  nodes : List Node
  outer : List (Label × List Node)

namespace Replay

/-- Opens a node with the label of an event, or closes the innermost one.  There may be none to
close. -/
def step : Replay → Option Label → Option Replay
  | ⟨nodes, outer⟩, some label => some ⟨[], (label, nodes) :: outer⟩
  | ⟨nodes, (label, before) :: outer⟩, none => some ⟨before ++ [label.node nodes], outer⟩
  | ⟨_, []⟩, none => none

/-- The one tree that is complete at the end of a replay. -/
def tree? : Replay → Option Node
  | ⟨[node], []⟩ => some node
  | _ => none

end Replay

/-- Builds a tree from the labels that are entered and the places where a node is left. -/
def rebuild (steps : List (Option Label)) : Option Node :=
  (steps.foldlM Replay.step ⟨[], []⟩).bind Replay.tree?

/-- Replaying the events of trees completes just these trees. -/
theorem replay_eventsIn (nodes before : List Node) (outer : List (Label × List Node)) :
    ((eventsIn nodes).map Event.entered?).foldlM Replay.step ⟨before, outer⟩ =
      some ⟨before ++ nodes, outer⟩ := by
  induction nodes using forest_induction generalizing before outer with
  | nil => simp [eventsIn]
  | cons node nodes inside behind =>
      have opens : Replay.step ⟨before, outer⟩ (some node.label) =
          some ⟨[], (node.label, before) :: outer⟩ := rfl
      have closes : Replay.step ⟨node.children, (node.label, before) :: outer⟩ none =
          some ⟨before ++ [node], outer⟩ := by
        rw [Replay.step, label_node_children]
      rw [eventsIn_cons, List.map_cons, List.map_append, List.map_cons]
      simp only [Event.entered?, List.foldlM_cons, List.foldlM_append, opens, closes, inside,
        List.nil_append, Option.bind_eq_bind, Option.bind_some, behind]
      simp

theorem rebuild_events (node : Node) : rebuild (node.events.map Event.entered?) = some node := by
  rw [rebuild, ← eventsIn_singleton, replay_eventsIn]
  rfl

/-- A tree is known by what is entered and where nodes are left. -/
theorem eq_of_entered_eq {node other : Node}
    (same : node.events.map Event.entered? = other.events.map Event.entered?) : node = other := by
  have rebuilt := rebuild_events node
  rw [same, rebuild_events other] at rebuilt
  exact (Option.some.inj rebuilt).symm

/-! ## Visitors -/

/-- The recorder writes the events of the trees behind those that it has. -/
theorem traverseIn_recorder (nodes : List Node) (events : List Event) :
    traverseIn .recorder nodes events = events ++ eventsIn nodes := by
  induction nodes using forest_induction generalizing events with
  | nil => simp [traverseIn, eventsIn]
  | cons node nodes inside behind =>
      rw [traverseIn, traverse_eq, inside, behind, eventsIn_cons]
      simp [Visitor.recorder]

theorem traverse_recorder (node : Node) : node.traverse .recorder [] = node.events :=
  (traverseIn_recorder [node] []).trans (eventsIn_singleton node)

theorem lineBreaks_eq (node : Node) :
    node.lineBreaks = (if node.isLineBreak then 1 else 0) + lineBreaksIn node.children := by
  cases node <;> simp [lineBreaks, isLineBreak, children, lineBreaksIn]

/-- The counter goes on by the number of line breaks. -/
theorem traverseIn_lineBreakCounter (nodes : List Node) (count : Nat) :
    traverseIn .lineBreakCounter nodes count = count + lineBreaksIn nodes := by
  induction nodes using forest_induction generalizing count with
  | nil => rfl
  | cons node nodes inside behind =>
      rw [traverseIn, traverse_eq, inside, behind, lineBreaksIn, lineBreaks_eq]
      simp only [Visitor.lineBreakCounter]
      split <;> omega

theorem countLineBreaks_eq (nodes : List Node) : countLineBreaks nodes = lineBreaksIn nodes := by
  rw [countLineBreaks, traverseIn_lineBreakCounter, Nat.zero_add]

theorem count_enter_lineBreak (nodes : List Node) :
    (eventsIn nodes).count (.enter .lineBreak) = lineBreaksIn nodes := by
  induction nodes using forest_induction with
  | nil => rfl
  | cons node nodes inside behind =>
      have enters : (Event.enter node.label == .enter .lineBreak) = node.isLineBreak := by
        cases node <;> rfl
      have leaves : (Event.leave node.label == .enter .lineBreak) = false := by
        cases node <;> rfl
      rw [eventsIn_cons, List.count_cons, List.count_append, List.count_cons, enters, leaves, inside,
        behind, lineBreaksIn, lineBreaks_eq]
      simp only [Bool.false_eq_true, if_false]
      omega

/-! ## Walks -/

/-- A walk enters and leaves each node of the tree once, in the order of a tour, whoever is taken
along.  The events that it passes match like brackets and can be replayed to the tree, which no
other tree has in common with it.  The line breaks that are entered are those that are counted, and
the counts of several trees add up. -/
theorem traversal_linearises (node : Node) :
    (∃ tour, IsTour node tour ∧ ∀ (σ : Type) (visitor : Visitor σ) (state : σ),
      node.traverse visitor state = tour.foldl (visitor.call node) state) ∧
    node.traverse .recorder [] = node.events ∧
    Bracketed node.events ∧
    rebuild (node.events.map Event.entered?) = some node ∧
    (∀ other : Node, other.events.map Event.entered? = node.events.map Event.entered? →
      other = node) ∧
    node.events.count (.enter .lineBreak) = countLineBreaks [node] ∧
    (∀ nodes : List Node, countLineBreaks nodes = lineBreaksIn nodes) ∧
    (∀ nodes more : List Node,
      countLineBreaks (nodes ++ more) = countLineBreaks nodes + countLineBreaks more) := by
  refine ⟨⟨node.tour, isTour_tour node, fun σ visitor => traverse_eq_foldl visitor node⟩,
    traverse_recorder node, ?_, rebuild_events node, fun other => eq_of_entered_eq, ?_,
    countLineBreaks_eq, ?_⟩
  · rw [← eventsIn_singleton]
    exact bracketed_eventsIn [node]
  · rw [← eventsIn_singleton, count_enter_lineBreak, countLineBreaks_eq]
  · intro nodes more
    simp only [countLineBreaks_eq, lineBreaksIn_append]

end Specimen.Template
