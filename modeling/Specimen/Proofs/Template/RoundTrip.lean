/-
# Specimen.Proofs.Template.RoundTrip — trees that are written as JSON and read again.

Every tree is read back from its text unless it is nested too deep to be read at all.  Whatever text
a tree is read from, that text is nested at least as deep as the one that is written for the tree.
So a text that is read and written once does not change when it is read and written again.
-/
import Specimen.Proofs.Json.RoundTrip
import Specimen.Template.Json

namespace Specimen.Template

open Json

namespace Node

/-! ## Trees as values -/

mutual

theorem isReadable_toJson : ∀ node : Node, node.toJson.IsReadable
  | lineBreak => .object (by simp [Value.IsReadable.string])
  | block head nodes => by
      have children := Value.IsReadable.array (isReadable_toJsonList nodes)
      refine .object ?_
      cases head <;> simp [headFields, Value.IsReadable.string, children]
  | container nodes => by
      have children := Value.IsReadable.array (isReadable_toJsonList nodes)
      exact .object (by simp [Value.IsReadable.string, children])

theorem isReadable_toJsonList : ∀ nodes : List Node, ∀ value ∈ toJsonList nodes, value.IsReadable
  | [] => List.forall_mem_nil _
  | node :: nodes =>
      List.forall_mem_cons.mpr ⟨isReadable_toJson node, isReadable_toJsonList nodes⟩

end

mutual

/-- A tree is read back from its value, at the root and below it. -/
theorem ofJson?_toJson (isRoot : Bool) : ∀ node : Node, ofJson? isRoot node.toJson = some node
  | lineBreak => rfl
  | block (.call kind code) nodes => by
      have children := ofJsonList?_toJsonList nodes
      simp [toJson, headFields, ofJson?, only?, Form.ofJson?, Form.ofName?, childLists, children,
        single?, callHead?, kindName?, text?, CallKind.ofName?_name]
  | block (.markup kind text) nodes => by
      have children := ofJsonList?_toJsonList nodes
      simp [toJson, headFields, ofJson?, only?, Form.ofJson?, Form.ofName?, childLists, children,
        single?, markupHead?, kindName?, text?, MarkupKind.ofName?_name]
  | container nodes => by
      have children := ofJsonList?_toJsonList nodes
      simp [toJson, ofJson?, only?, Form.ofJson?, Form.ofName?, childLists, children, single?]

theorem ofJsonList?_toJsonList : ∀ nodes : List Node, ofJsonList? (toJsonList nodes) = some nodes
  | [] => rfl
  | node :: nodes => by
      rw [toJsonList, ofJsonList?, ofJson?_toJson false node, ofJsonList?_toJsonList nodes]
      rfl

end

/-! ## Depth -/

theorem nestingIn_toJsonList_le_iff {nodes : List Node} {depth : Nat} :
    Value.nestingIn (toJsonList nodes) ≤ depth ↔ ∀ node ∈ nodes, node.toJson.nesting ≤ depth := by
  induction nodes with
  | nil => simp [toJsonList, Value.nestingIn]
  | cons node nodes ih =>
      rw [toJsonList, Value.nestingIn, Nat.max_le, ih, List.forall_mem_cons]

/-- The children of a node stand inside an array inside an object. -/
theorem nesting_toJson_le (node : Node) :
    node.toJson.nesting ≤ Value.nestingIn (toJsonList node.children) + 2 := by
  cases node with
  | lineBreak => decide
  | block head nodes =>
      cases head <;> simp [toJson, headFields, Value.nesting, Value.fieldNesting, children]
  | container nodes => simp [toJson, Value.nesting, Value.fieldNesting, children]

/-- What is read as a list of nodes is read value by value. -/
theorem exists_of_mem_ofJsonList? {values : List Value} {nodes : List Node}
    (read : ofJsonList? values = some nodes) :
    ∀ node ∈ nodes, ∃ value ∈ values, ofJson? false value = some node := by
  induction values generalizing nodes with
  | nil =>
      cases read
      exact List.forall_mem_nil _
  | cons value values ih =>
      simp only [ofJsonList?, Option.bind_eq_bind, Option.bind_eq_some_iff] at read
      obtain ⟨node, first, others, rest, same⟩ := read
      cases same
      intro node' member
      obtain rfl | later := List.mem_cons.mp member
      · exact ⟨value, List.mem_cons_self, first⟩
      · obtain ⟨value', inside, found⟩ := ih rest node' later
        exact ⟨value', List.mem_cons_of_mem _ inside, found⟩

/-- A list of children is read from an array in one of the fields. -/
theorem exists_of_mem_childLists {fields : List (String × Value)} {nodes : List Node}
    (member : some nodes ∈ childLists fields) :
    ∃ name values, (name, Value.array values) ∈ fields ∧ ofJsonList? values = some nodes := by
  induction fields with
  | nil => cases member
  | cons field fields ih =>
      obtain ⟨name, value⟩ := field
      have later : some nodes ∈ childLists fields → ∃ name' values,
          (name', Value.array values) ∈ (name, value) :: fields ∧
            ofJsonList? values = some nodes := by
        intro member
        obtain ⟨name', values, inside, read⟩ := ih member
        exact ⟨name', values, List.mem_cons_of_mem _ inside, read⟩
      unfold childLists at member
      split at member
      · obtain first | rest := List.mem_cons.mp member
        · split at first
          · exact ⟨name, _, List.mem_cons_self, first.symm⟩
          · cases first
        · exact later rest
      · exact later member

theorem mem_of_single? {α : Type} {found : List (Option α)} {result : α}
    (only : single? found = some result) : some result ∈ found := by
  unfold single? at only
  split at only
  · exact only ▸ List.mem_singleton_self _
  · cases only

/-- The one list of children in an object stands in an array in that object. -/
theorem exists_of_single? {fields : List (String × Value)} {nodes : List Node}
    (only : single? (childLists fields) = some nodes) :
    ∃ values, ofJsonList? values = some nodes ∧
      Value.nestingIn values + 2 ≤ (Value.object fields).nesting := by
  obtain ⟨name, values, inside, read⟩ := exists_of_mem_childLists (mem_of_single? only)
  exact ⟨values, read, Value.nesting_lt_object inside⟩

/-- A list of children in an array stands in an array in that array. -/
theorem exists_of_mem_array {values children : List Value} {nodes : List Node}
    (read : ofJsonList? children = some nodes) (inside : Value.array children ∈ values) :
    ∃ values', ofJsonList? values' = some nodes ∧
      Value.nestingIn values' + 2 ≤ (Value.array values).nesting :=
  ⟨children, read, Value.nesting_lt_array inside⟩

/-- A node is a line break, or its children are read from an array inside the value that the node is
read from. -/
theorem children_of_ofJson? {value : Value} {isRoot : Bool} {node : Node}
    (read : ofJson? isRoot value = some node) :
    node = lineBreak ∧ 1 ≤ value.nesting ∨
      ∃ values, ofJsonList? values = some node.children ∧
        Value.nestingIn values + 2 ≤ value.nesting := by
  unfold ofJson? at read
  split at read
  · next fields =>
    split at read
    · cases read
    · cases read
      exact .inl ⟨rfl, by simp [Value.nesting]⟩
    -- a call and markup are read alike
    iterate 2
      · simp only [Option.bind_eq_bind, Option.bind_eq_some_iff, Option.pure_def,
          Option.some.injEq] at read
        obtain ⟨_, -, _, -, _, -, nodes, only, rfl⟩ := read
        exact .inr (exists_of_single? only)
    · simp only [Option.bind_eq_bind, Option.bind_eq_some_iff, Option.pure_def,
        Option.some.injEq] at read
      obtain ⟨nodes, only, rfl⟩ := read
      exact .inr (exists_of_single? only)
  · split at read
    · cases read
      exact .inl ⟨rfl, by simp [Value.nesting]⟩
    · cases read
  · next type values =>
    split at read
    · obtain ⟨nodes, inside, rfl⟩ := Option.map_eq_some_iff.mp read
      exact .inr (exists_of_mem_array inside (by simp))
    · cases read
  · next type kind text values =>
    split at read
    -- a call and markup are read alike
    iterate 2
      · simp only [Option.bind_eq_bind, Option.bind_eq_some_iff, Option.pure_def,
          Option.some.injEq] at read
        obtain ⟨_, -, nodes, inside, rfl⟩ := read
        exact .inr (exists_of_mem_array inside (by simp))
    · cases read
  · cases read

/-- A tree is nested no deeper than the value it is read from. -/
theorem nesting_le_of_ofJson? {value : Value} {isRoot : Bool} {node : Node}
    (read : ofJson? isRoot value = some node) : node.toJson.nesting ≤ value.nesting := by
  induction depth : value.nesting using Nat.strongRecOn generalizing value isRoot node with
  | ind depth ih =>
    obtain ⟨rfl, deep⟩ | ⟨values, inside, deep⟩ := children_of_ofJson? read
    · exact depth ▸ deep
    · have below : Value.nestingIn (toJsonList node.children) ≤ Value.nestingIn values := by
        rw [nestingIn_toJsonList_le_iff]
        intro child member
        obtain ⟨value', member', found⟩ := exists_of_mem_ofJsonList? inside child member
        have small := Value.nestingIn_le_iff.mp (Nat.le_refl _) value' member'
        exact Nat.le_trans (ih _ (by omega) found rfl) small
      have := nesting_toJson_le node
      omega

/-! ## Texts -/

/-- A tree that is read from a text is nested no deeper than texts may be. -/
theorem nesting_le_of_ofJsonText? {text : String} {node : Node}
    (read : ofJsonText? text = some node) : node.toJson.nesting ≤ Value.depthLimit := by
  unfold ofJsonText? at read
  split at read
  · next value whole =>
    exact Nat.le_trans (nesting_le_of_ofJson? read) (Value.nesting_le_of_read whole)
  · cases read

/-- A tree whose text is nested no deeper than texts may be is read back from it. -/
theorem ofJsonText?_toJsonText {node : Node} (shallow : node.toJson.nesting ≤ Value.depthLimit) :
    ofJsonText? node.toJsonText = some node := by
  have whole : Value.read node.toJsonText = .ok node.toJson :=
    (Value.read_compact_iff (isReadable_toJson node)).mpr shallow
  rw [ofJsonText?, whole]
  exact ofJson?_toJson true node

/-- A tree is read back from its text exactly if that text is nested no deeper than texts may be.
And whatever text the tree is read from, with its fields in whatever order and others between them,
the text that is written for it stays the same when it is read and written again. -/
theorem json_round_trip (node : Node) :
    (ofJsonText? node.toJsonText = some node ↔ node.toJson.nesting ≤ Value.depthLimit) ∧
      ∀ text, ofJsonText? text = some node →
        (ofJsonText? node.toJsonText).map toJsonText = some node.toJsonText := by
  refine ⟨⟨nesting_le_of_ofJsonText?, ofJsonText?_toJsonText⟩, fun text read => ?_⟩
  rw [ofJsonText?_toJsonText (nesting_le_of_ofJsonText? read), Option.map_some]

/-- A call with quotes in its code, above a container that holds nothing. -/
def quotedCall : Node := .block (.call .output "a \"b\" \\ \x01") [.lineBreak, .container []]

/-- The call, with its fields in another order and one that says nothing. -/
def quotedCallText : String :=
  "\x7b\"children\": [[0], [\"Container\", []]], \"line\": 1.5e3, " ++
    "\"code\": \"\\u0061 \\\"b\\\" \\\\ \\u0001\", \"kind\": \"Output\", \"type\": \"Call\"\x7d"

/-- The call is read from that text, and read back from its own. -/
theorem json_round_trip_call :
    ofJsonText? quotedCallText = some quotedCall ∧
      ofJsonText? quotedCall.toJsonText = some quotedCall ∧
      (ofJsonText? quotedCall.toJsonText).map toJsonText = some quotedCall.toJsonText := by
  have read : ofJsonText? quotedCallText = some quotedCall := by decide +kernel
  have shallow : quotedCall.toJson.nesting ≤ Value.depthLimit := by decide
  obtain ⟨back, again⟩ := json_round_trip quotedCall
  exact ⟨read, back.mpr shallow, again quotedCallText read⟩

end Node

end Specimen.Template
