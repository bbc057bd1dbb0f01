/-
# Specimen.Proofs.Template.Tour — in which order a walk meets the nodes of a tree.

The nodes of a tree are told apart by their addresses, since equal trees may stand in several places.
A tour is a list of visits by address: each node is entered once and left once, everything below it
in between, and one child is left before the next is entered.  `isTour_tour` says that there is such
a list for every tree, and `traverse_eq_foldl` that every walk makes just these visits.
-/
import Mathlib.Data.List.Count
import Specimen.Template.Visitor

namespace Specimen.Template

/-! ## Induction -/

namespace Node

mutual

theorem children_induction {motive : List Node → Prop} (nil : motive [])
    (cons : ∀ node nodes, motive node.children → motive nodes → motive (node :: nodes)) :
    ∀ node : Node, motive node.children
  | lineBreak => nil
  | block _ nodes => forest_induction nil cons nodes
  | container nodes => forest_induction nil cons nodes

/-- What holds of the empty list of trees, and of any other if it holds of the children of the first
tree and of the trees behind it, holds of all lists of trees. -/
theorem forest_induction {motive : List Node → Prop} (nil : motive [])
    (cons : ∀ node nodes, motive node.children → motive nodes → motive (node :: nodes)) :
    ∀ nodes : List Node, motive nodes
  | [] => nil
  | node :: nodes =>
      cons node nodes (children_induction nil cons node) (forest_induction nil cons nodes)

end

end Node

/-! ## Addresses -/

/-- The node at an address, which says for each step down from the root which child to take. -/
def Node.at? (node : Node) : List Nat → Option Node
  | [] => some node
  | i :: rest => node.children[i]?.bind (·.at? rest)

/-- A moment of a walk, named by the address of a node. -/
inductive Visit where
  | enter (address : List Nat)
  | leave (address : List Nat)
  deriving DecidableEq, Repr

namespace Visit

/-- The same visit, seen from the parent of the root: the root is this child of it. -/
def below (i : Nat) : Visit → Visit
  | enter address => enter (i :: address)
  | leave address => leave (i :: address)

theorem below_injective (i : Nat) : Function.Injective (below i) := by
  intro a b same
  cases a <;> cases b <;> simp_all [below]

theorem index_eq_of_below_eq {i j : Nat} {a b : Visit} (same : a.below i = b.below j) : i = j := by
  cases a <;> cases b <;> simp_all [below]

end Visit

/-- What a visitor does on a visit. -/
def Visitor.call {σ : Type} (visitor : Visitor σ) (root : Node) (state : σ) : Visit → σ
  | .enter address => (root.at? address).elim state (visitor.enter · state)
  | .leave address => (root.at? address).elim state (visitor.leave · state)

open Visit
open scoped List

/-- Every node is entered once and left once, and nothing else is visited.  What is below a node is
visited between entering and leaving it, and a child is left before a later one is entered. -/
structure IsTour (root : Node) (tour : List Visit) : Prop where
  entered : ∀ address, tour.count (enter address) = if (root.at? address).isSome then 1 else 0
  left : ∀ address, tour.count (leave address) = if (root.at? address).isSome then 1 else 0
  closed : ∀ address, (root.at? address).isSome → [enter address, leave address] <+ tour
  nested : ∀ above address, above <+: address → above ≠ address → (root.at? address).isSome →
    [enter above, enter address, leave address, leave above] <+ tour
  ordered : ∀ parent i j, i < j → (root.at? (parent ++ [j])).isSome →
    [leave (parent ++ [i]), enter (parent ++ [j])] <+ tour

/-! ## The tour of a tree -/

namespace Node

mutual

/-- The visits of a walk around a tree. -/
def tour : Node → List Visit
  | lineBreak => [enter [], leave []]
  | block _ nodes => enter [] :: (tourFrom 0 nodes ++ [leave []])
  | container nodes => enter [] :: (tourFrom 0 nodes ++ [leave []])

/-- The visits of walks around the children of a node, from the given child on. -/
def tourFrom (i : Nat) : List Node → List Visit
  | [] => []
  | node :: nodes => (tour node).map (below i) ++ tourFrom (i + 1) nodes

end

theorem tour_eq (node : Node) :
    node.tour = enter [] :: (tourFrom 0 node.children ++ [leave []]) := by
  cases node <;> rfl

/-! ## Every visit once -/

/-- Whatever is visited below a node is visited from one of its children. -/
theorem mem_tourFrom_iff {i : Nat} {nodes : List Node} {visit : Visit} :
    visit ∈ tourFrom i nodes ↔
      ∃ k child, nodes[k]? = some child ∧ ∃ inner ∈ tour child, below (i + k) inner = visit := by
  induction nodes generalizing i with
  | nil => simp [tourFrom]
  | cons node nodes ih =>
      rw [tourFrom, List.mem_append, List.mem_map, ih]
      constructor
      · rintro (here | ⟨k, child, found, inner, member, same⟩)
        · exact ⟨0, node, rfl, here⟩
        · exact ⟨k + 1, child, found, inner, member, by rw [← same, Nat.add_right_comm]; rfl⟩
      · rintro ⟨_ | k, child, found, inner, member, same⟩
        · obtain rfl := Option.some.inj found
          exact .inl ⟨inner, member, same⟩
        · exact .inr ⟨k, child, found, inner, member, by rw [← same, Nat.add_right_comm]; rfl⟩

theorem count_tourFrom (i k : Nat) (nodes : List Node) (visit : Visit) :
    (tourFrom i nodes).count (visit.below (i + k)) =
      nodes[k]?.elim 0 fun child => child.tour.count visit := by
  induction nodes generalizing i k with
  | nil => simp [tourFrom]
  | cons node nodes ih =>
      rw [tourFrom, List.count_append]
      cases k with
      | zero =>
          have others : (tourFrom (i + 1) nodes).count (visit.below (i + 0)) = 0 := by
            rw [List.count_eq_zero, mem_tourFrom_iff]
            rintro ⟨k, child, -, inner, -, same⟩
            have index := index_eq_of_below_eq same
            omega
          rw [others, Nat.add_zero, Nat.add_zero,
            List.count_map_of_injective _ _ (below_injective i)]
          rfl
      | succ k =>
          have others : ((tour node).map (below i)).count (visit.below (i + (k + 1))) = 0 := by
            rw [List.count_eq_zero, List.mem_map]
            rintro ⟨inner, -, same⟩
            have index := index_eq_of_below_eq same
            omega
          rw [others, Nat.zero_add, ← Nat.add_assoc, Nat.add_right_comm, ih]
          rfl

/-- A visit below a node is counted in the tour of one child. -/
theorem count_tour_below (node : Node) (k : Nat) (visit : Visit) :
    node.tour.count (visit.below k) =
      node.children[k]?.elim 0 fun child => child.tour.count visit := by
  have inner := count_tourFrom 0 k node.children visit
  rw [Nat.zero_add] at inner
  rw [tour_eq, List.count_cons, List.count_append, inner]
  cases visit <;> simp [below]

/-- A node itself is entered once and left once. -/
theorem count_tour_root (node : Node) :
    node.tour.count (enter []) = 1 ∧ node.tour.count (leave []) = 1 := by
  have outside : ∀ visit, (∀ k inner, below k inner ≠ visit) →
      (tourFrom 0 node.children).count visit = 0 := by
    intro visit other
    rw [List.count_eq_zero, mem_tourFrom_iff]
    rintro ⟨k, child, -, inner, -, same⟩
    exact other _ inner same
  have entered := outside (enter []) (by intro k inner; cases inner <;> simp [below])
  have left := outside (leave []) (by intro k inner; cases inner <;> simp [below])
  rw [tour_eq]
  simp [List.count_append, entered, left]

/-- Each node is entered once and left once. -/
theorem count_tour (node : Node) (address : List Nat) :
    node.tour.count (enter address) = (if (node.at? address).isSome then 1 else 0) ∧
      node.tour.count (leave address) = (if (node.at? address).isSome then 1 else 0) := by
  induction address generalizing node with
  | nil => exact node.count_tour_root
  | cons k rest ih =>
      have entered : node.tour.count (enter (k :: rest)) = _ := node.count_tour_below k (enter rest)
      have left : node.tour.count (leave (k :: rest)) = _ := node.count_tour_below k (leave rest)
      rw [entered, left, at?]
      cases node.children[k]? with
      | none => exact ⟨rfl, rfl⟩
      | some child => exact ih child

/-! ## The order of the visits -/

theorem sublist_tourFrom {nodes : List Node} {child : Node} {i k : Nat} {visits : List Visit}
    (found : nodes[k]? = some child) (inner : visits <+ child.tour) :
    visits.map (below (i + k)) <+ tourFrom i nodes := by
  induction nodes generalizing i k with
  | nil => cases found
  | cons node nodes ih =>
      rw [tourFrom]
      cases k with
      | zero =>
          obtain rfl := Option.some.inj found
          exact (inner.map _).trans (List.sublist_append_left _ _)
      | succ k =>
          have later : visits.map (below (i + 1 + k)) <+ tourFrom (i + 1) nodes := ih found
          rw [Nat.add_right_comm] at later
          exact later.trans (List.sublist_append_right _ _)

/-- The visits below a node come between entering and leaving it. -/
theorem sublist_tour_of_sublist_tourFrom {node : Node} {visits : List Visit}
    (inside : visits <+ tourFrom 0 node.children) :
    enter [] :: (visits ++ [leave []]) <+ node.tour := by
  rw [tour_eq]
  exact (inside.append_right [leave []]).cons_cons (enter [])

/-- What is visited from a child is visited in the same order from its parent. -/
theorem sublist_tour_of_child {node child : Node} {k : Nat} {visits : List Visit}
    (found : node.children[k]? = some child) (inner : visits <+ child.tour) :
    enter [] :: (visits.map (below k) ++ [leave []]) <+ node.tour := by
  have inside : visits.map (below (0 + k)) <+ tourFrom 0 node.children :=
    sublist_tourFrom found inner
  rw [Nat.zero_add] at inside
  exact sublist_tour_of_sublist_tourFrom inside

/-- The step from a node with a given address to its child on the way there. -/
theorem exists_child_of_at? {node : Node} {k : Nat} {rest : List Nat}
    (there : (node.at? (k :: rest)).isSome = true) :
    ∃ child, node.children[k]? = some child ∧ (child.at? rest).isSome = true := by
  rw [at?] at there
  cases found : node.children[k]? with
  | none => simp [found] at there
  | some child => exact ⟨child, rfl, by simpa [found] using there⟩

theorem closed_tour {node : Node} {address : List Nat}
    (there : (node.at? address).isSome = true) :
    [enter address, leave address] <+ node.tour := by
  induction address generalizing node with
  | nil => exact sublist_tour_of_sublist_tourFrom (List.nil_sublist _)
  | cons k rest ih =>
      obtain ⟨child, found, there⟩ := exists_child_of_at? there
      exact (List.infix_append [enter []] _ [leave []]).sublist.trans
        (sublist_tour_of_child found (ih there))

theorem nested_tour {node : Node} {above address : List Nat} (inside : above <+: address)
    (differ : above ≠ address) (there : (node.at? address).isSome = true) :
    [enter above, enter address, leave address, leave above] <+ node.tour := by
  induction above generalizing node address with
  | nil =>
      cases address with
      | nil => exact absurd rfl differ
      | cons k rest =>
          obtain ⟨child, found, there⟩ := exists_child_of_at? there
          exact sublist_tour_of_child found (closed_tour there)
  | cons k above ih =>
      obtain ⟨rest, rfl⟩ := inside
      obtain ⟨child, found, there⟩ := exists_child_of_at? there
      have differ : above ≠ above ++ rest := fun same => differ (congrArg (k :: ·) same)
      exact (List.infix_append [enter []] _ [leave []]).sublist.trans
        (sublist_tour_of_child found (ih (List.prefix_append above rest) differ there))

theorem ordered_tourFrom {nodes : List Node} {child : Node} {n i j : Nat} (before : i < j)
    (found : nodes[j]? = some child) :
    [leave [n + i], enter [n + j]] <+ tourFrom n nodes := by
  induction nodes generalizing n i j with
  | nil => cases found
  | cons node nodes ih =>
      obtain ⟨j, rfl⟩ : ∃ j', j = j' + 1 := ⟨j - 1, by omega⟩
      rw [tourFrom]
      cases i with
      | zero =>
          have first : [leave [n + 0]] <+ (tour node).map (below n) := by
            have closed : [enter [], leave []] <+ node.tour := closed_tour rfl
            exact (List.sublist_append_right [enter [n]] _).trans (closed.map (below n))
          have second : [enter [n + (j + 1)]] <+ tourFrom (n + 1) nodes := by
            have there : [enter []] <+ child.tour := by
              rw [tour_eq]
              exact (List.nil_sublist _).cons_cons _
            have behind : nodes[j]? = some child := found
            have later : [enter [n + 1 + j]] <+ tourFrom (n + 1) nodes :=
              sublist_tourFrom behind there
            rwa [Nat.add_right_comm] at later
          exact first.append second
      | succ i =>
          have later := ih (n := n + 1) (i := i) (by omega) found
          rw [Nat.add_right_comm n 1 i, Nat.add_right_comm n 1 j] at later
          exact later.trans (List.sublist_append_right _ _)

theorem ordered_tour {node : Node} {parent : List Nat} {i j : Nat} (before : i < j)
    (there : (node.at? (parent ++ [j])).isSome = true) :
    [leave (parent ++ [i]), enter (parent ++ [j])] <+ node.tour := by
  induction parent generalizing node with
  | nil =>
      obtain ⟨child, found, -⟩ := exists_child_of_at? there
      have inside := ordered_tourFrom (n := 0) before found
      rw [Nat.zero_add, Nat.zero_add] at inside
      exact (List.infix_append [enter []] _ [leave []]).sublist.trans
        (sublist_tour_of_sublist_tourFrom inside)
  | cons k parent ih =>
      obtain ⟨child, found, there⟩ := exists_child_of_at? there
      exact (List.infix_append [enter []] _ [leave []]).sublist.trans
        (sublist_tour_of_child found (ih there))

theorem isTour_tour (node : Node) : IsTour node node.tour where
  entered address := (node.count_tour address).1
  left address := (node.count_tour address).2
  closed _ there := closed_tour there
  nested _ _ inside differ there := nested_tour inside differ there
  ordered _ _ _ before there := ordered_tour before there

/-! ## Walks make the visits of the tour -/

section

variable {σ : Type} (visitor : Visitor σ)

/-- Seen from the parent, what is done below a child is what is done on the child's own tour. -/
theorem foldl_call_below {node child : Node} {k : Nat} (found : node.children[k]? = some child)
    (visits : List Visit) (state : σ) :
    (visits.map (below k)).foldl (visitor.call node) state =
      visits.foldl (visitor.call child) state := by
  have same : ∀ state visit,
      visitor.call node state (below k visit) = visitor.call child state visit := by
    intro state visit
    cases visit <;> simp [below, Visitor.call, at?, found]
  rw [List.foldl_map]
  simp only [same]

theorem foldl_tour (node : Node) (state : σ) :
    node.tour.foldl (visitor.call node) state = visitor.leave node
      ((tourFrom 0 node.children).foldl (visitor.call node) (visitor.enter node state)) := by
  rw [tour_eq, List.foldl_cons, List.foldl_append]
  rfl

theorem traverseIn_eq_foldl (nodes : List Node) {root : Node} {i : Nat}
    (there : ∀ k, root.children[i + k]? = nodes[k]?) (state : σ) :
    traverseIn visitor nodes state = (tourFrom i nodes).foldl (visitor.call root) state := by
  induction nodes using forest_induction generalizing root i state with
  | nil => rfl
  | cons node nodes inside behind =>
      have here : root.children[i]? = some node := there 0
      have later : ∀ k, root.children[i + 1 + k]? = nodes[k]? := by
        intro k
        rw [Nat.add_right_comm]
        exact there (k + 1)
      have children : ∀ k, node.children[0 + k]? = node.children[k]? := by simp
      rw [traverseIn, tourFrom, List.foldl_append, foldl_call_below visitor here, foldl_tour,
        traverse_eq, inside children, behind later]

/-- A walk around a tree makes the visits of its tour. -/
theorem traverse_eq_foldl (node : Node) (state : σ) :
    node.traverse visitor state = node.tour.foldl (visitor.call node) state := by
  have there : ∀ k, node.children[0 + k]? = node.children[k]? := by simp
  rw [traverse_eq, foldl_tour, traverseIn_eq_foldl visitor node.children there]

end

end Node

end Specimen.Template
