/-
# Specimen.Proofs.Json.RoundTrip — values are read as they are written.

Each reader is shown to read what the writer writes and to stop there; a reader of arrays or objects
passes on what its elements leave.  Put together by induction on the steps of the reading, they give
a value back from its text in whatever layout.
-/
import Specimen.Proofs.Json.Layout
import Specimen.Proofs.Json.Lexeme
import Specimen.Proofs.Json.Nesting

namespace Specimen.Json

/-! ## White space -/

/-- White space is passed over. -/
theorem skipBlanks_append {gap : List Char} (blank : ∀ c ∈ gap, isBlank c = true)
    (cs : List Char) : skipBlanks (gap ++ cs) = skipBlanks cs :=
  List.dropWhile_append_of_pos blank

theorem skipBlanks_cons {c : Char} (solid : isBlank c = false) (cs : List Char) :
    skipBlanks (c :: cs) = c :: cs := by
  rw [skipBlanks, List.dropWhile_cons_of_neg (by simp [solid])]

/-- White space has no part in a number. -/
theorem not_numeric_of_isBlank {c : Char} (blank : isBlank c = true) :
    c.isDigit = false ∧ c ≠ '-' ∧ c ≠ '.' ∧ c ≠ 'e' ∧ c ≠ 'E' := by
  simp only [isBlank, Bool.or_eq_true, decide_eq_true_eq] at blank
  obtain ((rfl | rfl) | rfl) | rfl := blank <;> decide

section Grammar

variable {α : Type} {element : List Char → Except Fault (α × List Char)} {value : α}
  {values : List α} {gap cs rest : List Char}

/-! ## Arrays -/

theorem readMoreElements_close (blank : ∀ c ∈ gap, isBlank c = true) (steps : Nat) :
    readMoreElements element (steps + 1) (gap ++ ']' :: rest) = .ok ([], rest) := by
  rw [readMoreElements, skipBlanks_append blank, skipBlanks_cons (by decide)]
  rfl

theorem readMoreElements_next {steps : Nat} (blank : ∀ c ∈ gap, isBlank c = true)
    (first : element cs = .ok (value, rest)) {behind : List Char}
    (others : readMoreElements element steps rest = .ok (values, behind)) :
    readMoreElements element (steps + 1) (gap ++ ',' :: cs) = .ok (value :: values, behind) := by
  rw [readMoreElements, skipBlanks_append blank, skipBlanks_cons (by decide)]
  simp only [first, others]

theorem readElements_empty (blank : ∀ c ∈ gap, isBlank c = true) (steps : Nat) :
    readElements element steps (gap ++ ']' :: rest) = .ok ([], rest) := by
  rw [readElements, skipBlanks_append blank, skipBlanks_cons (by decide)]
  rfl

/-- The first element is read from behind the white space in front of it. -/
theorem readElements_first {steps : Nat} {c : Char} (blank : ∀ d ∈ gap, isBlank d = true)
    (solid : isBlank c = false) (opens : c ≠ ']') (first : element (c :: cs) = .ok (value, rest))
    {behind : List Char} (others : readMoreElements element steps rest = .ok (values, behind)) :
    readElements element steps (gap ++ c :: cs) = .ok (value :: values, behind) := by
  rw [readElements, skipBlanks_append blank, skipBlanks_cons solid]
  split
  · next none => cases none
  · next close => exact absurd (List.cons.inj close).1 opens
  · simp only [first, others]

/-! ## Objects -/

variable {σ : Type} {field : σ → String → List Char → Except Fault (σ × List Char)} {care : Care}
  {gathered gathered' : σ} {name : String}

theorem readFieldsFrom_close {text : List Char} (named : readString care text = .ok (name, cs))
    (blank : ∀ c ∈ gap, isBlank c = true)
    (one : field gathered name cs = .ok (gathered', gap ++ '}' :: rest)) (steps : Nat) :
    readFieldsFrom care field (steps + 1) gathered text = .ok (gathered', rest) := by
  rw [readFieldsFrom, named]
  simp only [one, skipBlanks_append blank, skipBlanks_cons (show isBlank '}' = false by decide)]

theorem readFieldsFrom_next {text behind : List Char}
    (named : readString care text = .ok (name, cs)) (blank : ∀ c ∈ gap, isBlank c = true)
    (blank' : ∀ c ∈ behind, isBlank c = true)
    (one : field gathered name cs = .ok (gathered', gap ++ ',' :: (behind ++ '"' :: rest)))
    (steps : Nat) :
    readFieldsFrom care field (steps + 1) gathered text =
      readFieldsFrom care field steps gathered' rest := by
  rw [readFieldsFrom, named]
  simp only [one, skipBlanks_append blank, skipBlanks_append blank',
    skipBlanks_cons (show isBlank ',' = false by decide),
    skipBlanks_cons (show isBlank '"' = false by decide)]

theorem readFields_empty (blank : ∀ c ∈ gap, isBlank c = true) (steps : Nat) :
    readFields care field steps gathered (gap ++ '}' :: rest) = .ok (gathered, rest) := by
  rw [readFields, skipBlanks_append blank, skipBlanks_cons (by decide)]
  rfl

theorem readFields_first (blank : ∀ c ∈ gap, isBlank c = true) (steps : Nat) :
    readFields care field steps gathered (gap ++ '"' :: rest) =
      readFieldsFrom care field steps gathered rest := by
  rw [readFields, skipBlanks_append blank, skipBlanks_cons (by decide)]
  rfl

end Grammar

/-! ## Values -/

section Values

variable {care : Care} {steps depth : Nat} {gap cs rest : List Char}

/-- White space in front of a value is passed over. -/
theorem readValue_gap (blank : ∀ c ∈ gap, isBlank c = true) :
    readValue care steps depth (gap ++ cs) = readValue care steps depth cs := by
  cases steps with
  | zero => rfl
  | succ steps => rw [readValue, readValue, skipBlanks_append blank]

theorem readValue_null :
    readValue care (steps + 1) depth (['n', 'u', 'l', 'l'] ++ rest) = .ok (.null, rest) := by
  simp [readValue, skipBlanks, isBlank, readWord, Except.map]

theorem readValue_true :
    readValue care (steps + 1) depth (['t', 'r', 'u', 'e'] ++ rest) = .ok (.bool true, rest) := by
  simp [readValue, skipBlanks, isBlank, readWord, Except.map]

theorem readValue_false :
    readValue care (steps + 1) depth (['f', 'a', 'l', 's', 'e'] ++ rest) =
      .ok (.bool false, rest) := by
  simp [readValue, skipBlanks, isBlank, readWord, Except.map]

theorem readValue_string {text : String} (read : readString care cs = .ok (text, rest)) :
    readValue care (steps + 1) depth ('"' :: cs) = .ok (.string text, rest) := by
  rw [readValue, skipBlanks_cons (by decide)]
  simp only [read, Except.map]

/-- A number starts with a minus or a digit. -/
theorem exists_cons_text {numeral : Numeral} (readable : numeral.IsReadable) (rest : List Char) :
    ∃ c cs, numeral.text ++ rest = c :: cs ∧ (c = '-' ∨ c.isDigit = true) := by
  obtain ⟨d, ds, whole⟩ := List.exists_cons_of_ne_nil readable.whole.1
  have digit : d.isDigit = true := readable.whole.2 d (whole ▸ List.mem_cons_self)
  rw [Numeral.text_eq, whole]
  cases numeral.negative with
  | true => exact ⟨_, _, rfl, .inl rfl⟩
  | false => exact ⟨_, _, rfl, .inr digit⟩

theorem isBlank_of_first {c : Char} (first : c = '-' ∨ c.isDigit = true) : isBlank c = false := by
  rw [Bool.eq_false_iff]
  intro blank
  obtain ⟨noDigit, noMinus, -⟩ := not_numeric_of_isBlank blank
  obtain minus | digit := first
  · exact noMinus minus
  · exact absurd digit (Bool.eq_false_iff.mp noDigit)

theorem readValue_number {numeral : Numeral} {c : Char} (first : c = '-' ∨ c.isDigit = true)
    (read : readNumeral care (c :: cs) = .ok (numeral, rest)) :
    readValue care (steps + 1) depth (c :: cs) = .ok (.number numeral, rest) := by
  rw [readValue, skipBlanks_cons (isBlank_of_first first)]
  split
  · next none => cases none
  iterate 6
    · next other => exact absurd ((List.cons.inj other).1 ▸ first) (by decide)
  · next same =>
    cases same
    rw [if_pos first, read]
    rfl

theorem readValue_array {values : List Value}
    (elements : readElements (readValue care steps depth) steps cs = .ok (values, rest)) :
    readValue care (steps + 1) (depth + 1) ('[' :: cs) = .ok (.array values, rest) := by
  rw [readValue, skipBlanks_cons (by decide)]
  simp only [elements, Except.map]

theorem readValue_object {fields : List (String × Value)}
    (members : readFields care (readField (readValue care steps depth)) steps [] cs =
      .ok (fields.reverse, rest)) :
    readValue care (steps + 1) (depth + 1) ('{' :: cs) = .ok (.object fields, rest) := by
  rw [readValue, skipBlanks_cons (by decide)]
  show Except.map _ (readFields care (readField (readValue care steps depth)) steps [] cs) = _
  simp only [members, Except.map, List.reverse_reverse]

theorem readColon_append (blank : ∀ c ∈ gap, isBlank c = true) (cs : List Char) :
    readColon (gap ++ ':' :: cs) = .ok cs := by
  rw [readColon, skipBlanks_append blank, skipBlanks_cons (by decide)]
  rfl

/-- A field is read from behind its name. -/
theorem readField_colon {element : List Char → Except Fault (Value × List Char)} {value : Value}
    (blank : ∀ c ∈ gap, isBlank c = true) (one : element cs = .ok (value, rest))
    (fields : List (String × Value)) (name : String) :
    readField element fields name (gap ++ ':' :: cs) = .ok ((name, value) :: fields, rest) := by
  rw [readField, readColon_append blank]
  simp only [one, Except.map]

end Values

/-! ## Reading what is written -/

namespace Value

/-- A value all of whose numbers are written by the rules and in range. -/
inductive IsReadable : Value → Prop
  | null : IsReadable null
  | bool (value : Bool) : IsReadable (bool value)
  | number {numeral : Numeral} (one : numeral.IsReadable) : IsReadable (number numeral)
  | string (text : String) : IsReadable (string text)
  | array {values : List Value} (all : ∀ value ∈ values, IsReadable value) :
      IsReadable (array values)
  | object {fields : List (String × Value)} (all : ∀ field ∈ fields, IsReadable field.2) :
      IsReadable (object fields)

variable {layout : Layout} {care : Care} {steps fuel room depth : Nat} {value : Value}
  {values : List Value} {fields : List (String × Value)} {rest : List Char}

/-! ### The text of a value -/

/-- A value starts with a character that is neither blank nor the end of an array. -/
theorem exists_cons_written (readable : value.IsReadable) (layout : Layout) (depth : Nat)
    (rest : List Char) :
    ∃ c cs, written layout depth value ++ rest = c :: cs ∧ isBlank c = false ∧ c ≠ ']' := by
  cases readable with
  | null => exact ⟨'n', _, rfl, by decide, by decide⟩
  | bool value =>
      cases value with
      | true => exact ⟨'t', _, rfl, by decide, by decide⟩
      | false => exact ⟨'f', _, rfl, by decide, by decide⟩
  | number one =>
      obtain ⟨c, cs, form, first⟩ := exists_cons_text one rest
      refine ⟨c, cs, form, isBlank_of_first first, ?_⟩
      rintro rfl
      exact absurd first (by decide)
  | string text => exact ⟨'"', _, rfl, by decide, by decide⟩
  | @array values =>
      cases values with
      | nil => exact ⟨'[', _, rfl, by decide, by decide⟩
      | cons _ _ => exact ⟨'[', _, rfl, by decide, by decide⟩
  | @object fields =>
      cases fields with
      | nil => exact ⟨'{', _, rfl, by decide, by decide⟩
      | cons _ _ => exact ⟨'{', _, rfl, by decide, by decide⟩

/-- The end of the text ends a number. -/
theorem endsNumber_nil : EndsNumber [] := by
  simp [EndsNumber]

/-- A character that is no part of a number ends one. -/
theorem endsNumber_cons {c : Char}
    (other : c.isDigit = false ∧ c ≠ '.' ∧ c ≠ 'e' ∧ c ≠ 'E') (rest : List Char) :
    EndsNumber (c :: rest) := by
  intro d first
  obtain rfl := Option.some.inj first
  exact other

/-- White space ends a number. -/
theorem endsNumber_gap {gap : List Char} (blank : ∀ c ∈ gap, isBlank c = true)
    (ends : EndsNumber rest) : EndsNumber (gap ++ rest) := by
  cases gap with
  | nil => exact ends
  | cons c gap =>
      obtain ⟨noDigit, -, others⟩ := not_numeric_of_isBlank (blank c List.mem_cons_self)
      exact endsNumber_cons ⟨noDigit, others⟩ (gap ++ rest)

/-- The text behind an element does not continue a number. -/
theorem endsNumber_writtenElements (layout : Layout) (depth : Nat) (values : List Value)
    (rest : List Char) : EndsNumber (writtenElements layout depth values ++ rest) := by
  cases values with
  | nil =>
      rw [writtenElements, List.append_assoc]
      exact endsNumber_gap (layout.gap_blank depth) (endsNumber_cons (by decide) _)
  | cons _ _ => exact endsNumber_cons (by decide) _

/-- The text behind a field does not continue a number. -/
theorem endsNumber_writtenFields (layout : Layout) (depth : Nat) (fields : List (String × Value))
    (rest : List Char) : EndsNumber (writtenFields layout depth fields ++ rest) := by
  cases fields with
  | nil =>
      rw [writtenFields, List.append_assoc]
      exact endsNumber_gap (layout.gap_blank depth) (endsNumber_cons (by decide) _)
  | cons _ _ => exact endsNumber_cons (by decide) _

theorem length_lt_writtenElements (member : value ∈ values) :
    (written layout (depth + 1) value).length < (writtenElements layout depth values).length := by
  induction values with
  | nil => cases member
  | cons other values ih =>
      rw [writtenElements, List.length_cons, List.length_append, List.length_append]
      obtain rfl | later := List.mem_cons.mp member
      · omega
      · have := ih later
        omega

theorem length_lt_writtenFields {field : String × Value} (member : field ∈ fields) :
    (written layout (depth + 1) field.2).length < (writtenFields layout depth fields).length := by
  induction fields with
  | nil => cases member
  | cons other fields ih =>
      simp only [writtenFields, List.length_cons, List.length_append]
      obtain rfl | later := List.mem_cons.mp member
      · omega
      · have := ih later
        omega

theorem length_lt_array (member : value ∈ values) :
    (written layout (depth + 1) value).length < (written layout depth (array values)).length := by
  cases values with
  | nil => cases member
  | cons _ _ => exact length_lt_writtenElements member

theorem length_lt_object {field : String × Value} (member : field ∈ fields) :
    (written layout (depth + 1) field.2).length <
      (written layout depth (object fields)).length := by
  cases fields with
  | nil => cases member
  | cons _ _ => exact length_lt_writtenFields member

/-! ### One reading -/

/-- The reader gives back a value from its text. -/
def ReadsBack (layout : Layout) (care : Care) (steps room depth : Nat) (value : Value) : Prop :=
  ∀ rest, EndsNumber rest →
    readValue care steps room (written layout depth value ++ rest) = .ok (value, rest)

theorem ReadsBack.element (one : ReadsBack layout care fuel room (depth + 1) value)
    (values : List Value) (rest : List Char) :
    readValue care fuel room (layout.gap (depth + 1) ++
        (written layout (depth + 1) value ++ (writtenElements layout depth values ++ rest))) =
      .ok (value, writtenElements layout depth values ++ rest) := by
  rw [readValue_gap (layout.gap_blank _)]
  exact one _ (endsNumber_writtenElements layout depth values rest)

theorem ReadsBack.field (one : ReadsBack layout care fuel room (depth + 1) value)
    (before : List (String × Value)) (name : String) (fields : List (String × Value))
    (rest : List Char) :
    readField (readValue care fuel room) before name (':' :: (layout.behindColon ++
        (written layout (depth + 1) value ++ (writtenFields layout depth fields ++ rest)))) =
      .ok ((name, value) :: before, writtenFields layout depth fields ++ rest) := by
  refine readField_colon (List.forall_mem_nil _) ?_ before name
  rw [readValue_gap layout.behindColon_blank]
  exact one _ (endsNumber_writtenFields layout depth fields rest)

/-- If the elements behind an element are read back, so is the rest of their array. -/
theorem readMoreElements_written
    (all : ∀ value ∈ values, ReadsBack layout care fuel room (depth + 1) value)
    (short : (writtenElements layout depth values).length ≤ steps) :
    readMoreElements (readValue care fuel room) steps
        (writtenElements layout depth values ++ rest) =
      .ok (values, rest) := by
  induction values generalizing steps with
  | nil =>
      simp only [writtenElements, List.length_append, List.length_singleton] at short
      obtain ⟨steps, rfl⟩ : ∃ n, steps = n + 1 := ⟨steps - 1, by omega⟩
      rw [writtenElements, List.append_assoc, List.singleton_append]
      exact readMoreElements_close (layout.gap_blank depth) steps
  | cons value values ih =>
      simp only [writtenElements, List.length_cons, List.length_append] at short
      obtain ⟨steps, rfl⟩ : ∃ n, steps = n + 1 := ⟨steps - 1, by omega⟩
      obtain ⟨one, others⟩ := List.forall_mem_cons.mp all
      simp only [writtenElements, List.cons_append, List.append_assoc]
      exact readMoreElements_next (List.forall_mem_nil _) (one.element values rest)
        (ih others (by omega))

/-- If a field and the fields behind it are read back, so is the rest of their object. -/
theorem readFieldsFrom_written {name : String}
    (one : ReadsBack layout care fuel room (depth + 1) value)
    (all : ∀ field ∈ fields, ReadsBack layout care fuel room (depth + 1) field.2)
    (short : (writtenFields layout depth fields).length ≤ steps)
    (before : List (String × Value)) :
    readFieldsFrom care (readField (readValue care fuel room)) steps before
        (behindQuote name ++ ':' :: (layout.behindColon ++
          (written layout (depth + 1) value ++ (writtenFields layout depth fields ++ rest)))) =
      .ok (fields.reverse ++ (name, value) :: before, rest) := by
  have field := one.field before name fields rest
  induction fields generalizing steps before name value with
  | nil =>
      simp only [writtenFields, List.length_append, List.length_singleton] at short
      obtain ⟨steps, rfl⟩ : ∃ n, steps = n + 1 := ⟨steps - 1, by omega⟩
      simp only [writtenFields, List.append_assoc, List.singleton_append] at field ⊢
      exact readFieldsFrom_close (readString_behindQuote care name _) (layout.gap_blank depth) field
        steps
  | cons next fields ih =>
      obtain ⟨name', value'⟩ := next
      simp only [writtenFields, List.length_cons, List.length_append] at short
      obtain ⟨steps, rfl⟩ : ∃ n, steps = n + 1 := ⟨steps - 1, by omega⟩
      obtain ⟨one', others⟩ := List.forall_mem_cons.mp all
      simp only [writtenFields, quoted_eq, List.cons_append, List.append_assoc] at field ⊢
      rw [readFieldsFrom_next (readString_behindQuote care name _) (List.forall_mem_nil _)
          (layout.gap_blank _) field,
        ih one' others (by omega) _ (one'.field _ name' fields rest), List.reverse_cons,
        List.append_assoc]
      rfl

theorem readsBack_array (readable : ∀ value ∈ values, value.IsReadable)
    (all : ∀ value ∈ values, ReadsBack layout care steps room (depth + 1) value)
    (short : (written layout depth (array values)).length ≤ steps) :
    ReadsBack layout care (steps + 1) (room + 1) depth (array values) := by
  intro rest ends
  cases values with
  | nil => exact readValue_array (readElements_empty (List.forall_mem_nil _) steps)
  | cons value values =>
      simp only [written, List.length_cons, List.length_append] at short
      obtain ⟨one, others⟩ := List.forall_mem_cons.mp all
      obtain ⟨c, cs, form, solid, opens⟩ := exists_cons_written
        (readable value List.mem_cons_self) layout (depth + 1)
        (writtenElements layout depth values ++ rest)
      have first := one _ (endsNumber_writtenElements layout depth values rest)
      simp only [written, List.cons_append, List.append_assoc]
      rw [form] at first ⊢
      exact readValue_array (readElements_first (layout.gap_blank _) solid opens first
        (readMoreElements_written others (by omega)))

theorem readsBack_object
    (all : ∀ field ∈ fields, ReadsBack layout care steps room (depth + 1) field.2)
    (short : (written layout depth (object fields)).length ≤ steps) :
    ReadsBack layout care (steps + 1) (room + 1) depth (object fields) := by
  intro rest ends
  cases fields with
  | nil => exact readValue_object (readFields_empty (List.forall_mem_nil _) steps)
  | cons field fields =>
      obtain ⟨name, value⟩ := field
      simp only [written, List.length_cons, List.length_append] at short
      obtain ⟨one, others⟩ := List.forall_mem_cons.mp all
      simp only [written, quoted_eq, List.cons_append, List.append_assoc]
      apply readValue_object
      rw [readFields_first (layout.gap_blank _), readFieldsFrom_written one others (by omega),
        List.reverse_cons]

/-- A value is read back from its text, in whatever layout, if it is nested no deeper than allowed
and the text behind it does not continue a number. -/
theorem readsBack (readable : value.IsReadable) (shallow : value.nesting ≤ room)
    (short : (written layout depth value).length < steps) :
    ReadsBack layout care steps room depth value := by
  induction steps generalizing value room depth with
  | zero => exact absurd short (Nat.not_lt_zero _)
  | succ steps ih =>
      have short := Nat.le_of_lt_succ short
      cases readable with
      | null => exact fun _ _ => readValue_null
      | bool value =>
          cases value with
          | true => exact fun _ _ => readValue_true
          | false => exact fun _ _ => readValue_false
      | number one =>
          intro rest ends
          have read := readNumeral_text care one ends
          obtain ⟨c, cs, form, first⟩ := exists_cons_text one rest
          rw [form] at read
          rw [written, form]
          exact readValue_number first read
      | string text => exact fun rest _ => readValue_string (readString_behindQuote care text rest)
      | array all =>
          rw [nesting] at shallow
          obtain ⟨room, rfl⟩ : ∃ n, room = n + 1 := ⟨room - 1, by omega⟩
          rw [Nat.add_le_add_iff_right, nestingIn_le_iff] at shallow
          refine readsBack_array all (fun value member => ?_) short
          exact ih (all value member) (shallow value member)
            (Nat.lt_of_lt_of_le (length_lt_array member) short)
      | object all =>
          rw [nesting] at shallow
          obtain ⟨room, rfl⟩ : ∃ n, room = n + 1 := ⟨room - 1, by omega⟩
          rw [Nat.add_le_add_iff_right, fieldNesting_le_iff] at shallow
          refine readsBack_object (fun field member => ?_) short
          exact ih (all field member) (shallow field member)
            (Nat.lt_of_lt_of_le (length_lt_object member) short)

/-- A value whose numbers are readable is read back from its text, in whatever layout, exactly if it
is nested no deeper than texts may be. -/
theorem read_written_iff (readable : value.IsReadable) (layout : Layout) :
    Value.read (String.ofList (written layout 0 value)) = .ok value ↔
      value.nesting ≤ depthLimit := by
  refine ⟨nesting_le_of_read, fun shallow => read_eq_ok_iff.mpr ⟨[], ?_, rfl⟩⟩
  rw [String.toList_ofList]
  have back : ReadsBack layout .wanted ((written layout 0 value).length + 1) depthLimit 0 value :=
    readsBack readable shallow (Nat.lt_succ_self _)
  have read := back [] endsNumber_nil
  rwa [List.append_nil] at read

theorem read_compact_iff (readable : value.IsReadable) :
    Value.read (String.ofList value.compact) = .ok value ↔ value.nesting ≤ depthLimit := by
  rw [compact_eq_written 0, read_written_iff readable]

theorem read_indented_iff (readable : value.IsReadable) :
    Value.read (String.ofList (value.indented 0)) = .ok value ↔ value.nesting ≤ depthLimit := by
  rw [indented_eq_written 0, read_written_iff readable]

end Value

end Specimen.Json
