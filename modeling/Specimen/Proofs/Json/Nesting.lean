/-
# Specimen.Proofs.Json.Nesting — how deep arrays and objects are nested.

A reader opens no more brackets than it is allowed to.  The readers of arrays and objects know
nothing of depth: all that they put into their result comes from the reader of a single element or
field, and so does its depth.
-/
import Specimen.Json.Reader

namespace Specimen.Json

namespace Value

mutual

/-- The greatest number of arrays and objects that stand inside each other. -/
def nesting : Value → Nat
  | array values => nestingIn values + 1
  | object fields => fieldNesting fields + 1
  | _ => 0

/-- The greatest nesting of some values. -/
def nestingIn : List Value → Nat
  | [] => 0
  | value :: values => max (nesting value) (nestingIn values)

/-- The greatest nesting of the values of some fields. -/
def fieldNesting : List (String × Value) → Nat
  | [] => 0
  | (_, value) :: fields => max (nesting value) (fieldNesting fields)

end

theorem nestingIn_le_iff {values : List Value} {depth : Nat} :
    nestingIn values ≤ depth ↔ ∀ value ∈ values, value.nesting ≤ depth := by
  induction values with
  | nil => simp [nestingIn]
  | cons value values ih => rw [nestingIn, Nat.max_le, ih, List.forall_mem_cons]

theorem fieldNesting_le_iff {fields : List (String × Value)} {depth : Nat} :
    fieldNesting fields ≤ depth ↔ ∀ field ∈ fields, field.2.nesting ≤ depth := by
  induction fields with
  | nil => simp [fieldNesting]
  | cons field fields ih => rw [fieldNesting, Nat.max_le, ih, List.forall_mem_cons]

theorem nesting_lt_array {value : Value} {values : List Value} (member : value ∈ values) :
    value.nesting < (array values).nesting := by
  rw [nesting, Nat.lt_succ_iff]
  exact nestingIn_le_iff.mp (Nat.le_refl _) value member

theorem nesting_lt_object {field : String × Value} {fields : List (String × Value)}
    (member : field ∈ fields) : field.2.nesting < (object fields).nesting := by
  rw [nesting, Nat.lt_succ_iff]
  exact fieldNesting_le_iff.mp (Nat.le_refl _) field member

end Value

/-! ## Arrays and objects -/

section Elements

variable {α : Type} {element : List Char → Except Fault (α × List Char)} {values : List α}
  {steps : Nat} {cs rest : List Char}

/-- Each further element of an array was read as an element. -/
theorem exists_of_mem_readMoreElements
    (read : readMoreElements element steps cs = .ok (values, rest)) :
    ∀ value ∈ values, ∃ text behind, element text = .ok (value, behind) := by
  induction steps generalizing cs values rest with
  | zero => cases read
  | succ steps ih =>
      rw [readMoreElements] at read
      split at read
      · cases read
      · cases read
        exact List.forall_mem_nil _
      · split at read
        · cases read
        · next first =>
          split at read
          · cases read
          · next others =>
            cases read
            exact List.forall_mem_cons.mpr ⟨⟨_, _, first⟩, ih others⟩
      · cases read

/-- Each element of an array was read as an element. -/
theorem exists_of_mem_readElements (read : readElements element steps cs = .ok (values, rest)) :
    ∀ value ∈ values, ∃ text behind, element text = .ok (value, behind) := by
  rw [readElements] at read
  split at read
  · cases read
  · cases read
    exact List.forall_mem_nil _
  · split at read
    · cases read
    · next first =>
      split at read
      · cases read
      · next others =>
        cases read
        exact List.forall_mem_cons.mpr ⟨⟨_, _, first⟩, exists_of_mem_readMoreElements others⟩

end Elements

section Fields

variable {σ : Type} {field : σ → String → List Char → Except Fault (σ × List Char)} {care : Care}
  {steps : Nat} {gathered result : σ} {cs rest : List Char}

/-- What every field keeps is kept from a field to the end of its object. -/
theorem readFieldsFrom_keeps (keeps : σ → Prop)
    (step : ∀ {before name text after behind}, keeps before →
      field before name text = .ok (after, behind) → keeps after)
    (start : keeps gathered)
    (read : readFieldsFrom care field steps gathered cs = .ok (result, rest)) : keeps result := by
  induction steps generalizing gathered cs with
  | zero => cases read
  | succ steps ih =>
      rw [readFieldsFrom] at read
      split at read
      · cases read
      · split at read
        · cases read
        · next one =>
          have kept := step start one
          split at read
          · cases read
          · cases read
            exact kept
          · split at read
            · cases read
            · exact ih kept read
            · cases read
          · cases read

/-- What every field keeps is kept by a whole object. -/
theorem readFields_keeps (keeps : σ → Prop)
    (step : ∀ {before name text after behind}, keeps before →
      field before name text = .ok (after, behind) → keeps after)
    (start : keeps gathered)
    (read : readFields care field steps gathered cs = .ok (result, rest)) : keeps result := by
  rw [readFields] at read
  split at read
  · cases read
  · cases read
    exact start
  · exact readFieldsFrom_keeps keeps step start read
  · cases read

end Fields

/-! ## Values -/

/-- Reads the value behind the name of a field, and adds the field to those in front of it, the
latest first. -/
def readField (value : List Char → Except Fault (Value × List Char))
    (fields : List (String × Value)) (name : String) (rest : List Char) :
    Except Fault (List (String × Value) × List Char) :=
  match readColon rest with
  | .error fault => .error fault
  | .ok rest => (value rest).map fun (value, rest) => ((name, value) :: fields, rest)

variable {care : Care} {steps depth : Nat} {cs rest : List Char} {value : Value}

theorem map_eq_ok_iff {α β : Type} {f : α → β} {result : Except Fault α} {b : β} :
    result.map f = .ok b ↔ ∃ a, result = .ok a ∧ f a = b := by
  cases result <;> simp [Except.map]

/-- A value that is read is neither an array nor an object, or else it is read by the readers of
these, with one bracket less to open. -/
theorem readValue_cases (read : readValue care (steps + 1) depth cs = .ok (value, rest)) :
    value.nesting = 0 ∨
      (∃ inner values behind, depth = inner + 1 ∧ value = .array values ∧
        readElements (readValue care steps inner) steps behind = .ok (values, rest)) ∨
      ∃ inner fields behind, depth = inner + 1 ∧ value = .object fields.reverse ∧
        readFields care (readField (readValue care steps inner)) steps [] behind =
          .ok (fields, rest) := by
  have flat : ∀ {α : Type} {result : Except Fault α} {f : α → Value × List Char},
      (∀ a, (f a).1.nesting = 0) → result.map f = .ok (value, rest) → value.nesting = 0 := by
    intro α result f leaf read
    obtain ⟨a, -, same⟩ := map_eq_ok_iff.mp read
    exact (congrArg (·.1.nesting) same).symm.trans (leaf a)
  rw [readValue] at read
  split at read
  · cases read
  · exact .inl (flat (fun _ => rfl) read)
  · exact .inl (flat (fun _ => rfl) read)
  · exact .inl (flat (fun _ => rfl) read)
  · exact .inl (flat (fun _ => rfl) read)
  · next behind _ =>
    split at read
    · cases read
    · next inner =>
      obtain ⟨⟨values, _⟩, elements, same⟩ := map_eq_ok_iff.mp read
      cases same
      exact .inr (.inl ⟨inner, values, behind, rfl, rfl, elements⟩)
  · next behind _ =>
    split at read
    · cases read
    · next inner =>
      obtain ⟨⟨fields, _⟩, members, same⟩ := map_eq_ok_iff.mp read
      cases same
      exact .inr (.inr ⟨inner, fields, behind, rfl, rfl, members⟩)
  · split at read
    · exact .inl (flat (fun _ => rfl) read)
    · cases read

/-- A value that is read is nested no deeper than allowed. -/
theorem nesting_le_of_readValue (read : readValue care steps depth cs = .ok (value, rest)) :
    value.nesting ≤ depth := by
  induction steps generalizing depth cs value rest with
  | zero => cases read
  | succ steps ih =>
      obtain flat | ⟨inner, values, behind, rfl, rfl, elements⟩ |
        ⟨inner, fields, behind, rfl, rfl, members⟩ := readValue_cases read
      · omega
      · rw [Value.nesting, Nat.add_le_add_iff_right, Value.nestingIn_le_iff]
        intro value member
        obtain ⟨text, behind, one⟩ := exists_of_mem_readElements elements value member
        exact ih one
      · rw [Value.nesting, Nat.add_le_add_iff_right, Value.fieldNesting_le_iff]
        have kept : ∀ field ∈ fields, field.2.nesting ≤ inner := by
          refine readFields_keeps (fun fields => ∀ field ∈ fields, field.2.nesting ≤ inner) ?_
            (List.forall_mem_nil _) members
          intro before name text after behind kept one
          rw [readField] at one
          split at one
          · cases one
          · obtain ⟨⟨value, _⟩, inside, same⟩ := map_eq_ok_iff.mp one
            cases same
            exact List.forall_mem_cons.mpr ⟨ih inside, kept⟩
        intro field member
        exact kept field (List.mem_reverse.mp member)

namespace Value

/-- A text is read as a value if nothing but white space stands behind that value. -/
theorem read_eq_ok_iff {text : String} :
    Value.read text = .ok value ↔
      ∃ rest, readValue .wanted (text.toList.length + 1) depthLimit text.toList =
        .ok (value, rest) ∧ skipBlanks rest = [] := by
  cases one : readValue .wanted (text.toList.length + 1) depthLimit text.toList with
  | error fault => simp [Value.read, one, bind, Except.bind]
  | ok read =>
      obtain ⟨found, rest⟩ := read
      have whole : Value.read text = .ok value ↔ skipBlanks rest = [] ∧ found = value := by
        by_cases clean : skipBlanks rest = [] <;>
          simp [Value.read, one, bind, Except.bind, readEnd, clean]
      rw [whole]
      constructor
      · rintro ⟨clean, rfl⟩
        exact ⟨rest, rfl, clean⟩
      · rintro ⟨behind, same, clean⟩
        cases same
        exact ⟨clean, rfl⟩

/-- A text that is read as a value is nested no deeper than allowed. -/
theorem nesting_le_of_read {text : String} (read : Value.read text = .ok value) :
    value.nesting ≤ depthLimit := by
  obtain ⟨rest, one, -⟩ := read_eq_ok_iff.mp read
  exact nesting_le_of_readValue one

end Value

end Specimen.Json
