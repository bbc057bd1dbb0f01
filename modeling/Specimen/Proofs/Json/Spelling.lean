/-
# Specimen.Proofs.Json.Spelling — the texts of a JSON value.

A value has many texts.  White space may stand on both sides of a value and of a name, a character
of a string may be escaped in more than one way, and a power of ten may have a capital letter or a
plus sign.  `Spells` is the grammar of all these texts.  It knows no reader and no bound on depth, so
it says of a text that it is well formed even where that text is nested too deep to be read here.

What is written is one of the texts of the value, in whatever layout.  In the layout without any
space it has no control character either, and so it stays on one line.
-/
import Mathlib.Data.List.Forall2
import Specimen.Proofs.Json.RoundTrip

namespace Specimen.Json

/-! ## Strings -/

/-- Four hexadecimal digits that make a number. -/
def SpellsHex (n : Nat) (digits : List Char) : Prop :=
  ∃ a b c d, digits.map hexValue? = [some a, some b, some c, some d] ∧
    n = ((a * 16 + b) * 16 + c) * 16 + d

/-- The texts of one character inside a string. -/
inductive SpellsChar (c : Char) : List Char → Prop
  /-- As it is, if it is neither a control character nor one that has a meaning there. -/
  | plain : ' ' ≤ c → c ≠ '"' → c ≠ '\\' → SpellsChar c [c]
  | lettered {letter : Char} : lettered? letter = some c → SpellsChar c ['\\', letter]
  | numbered {digits : List Char} : SpellsHex c.toNat digits → SpellsChar c ('\\' :: 'u' :: digits)
  /-- By the two halves of a surrogate pair. -/
  | paired {high low : Nat} {digits digits' : List Char} :
      isHighSurrogate high = true → isLowSurrogate low = true →
      c.toNat = (high - 0xd800) * 0x400 + (low - 0xdc00) + 0x10000 →
      SpellsHex high digits → SpellsHex low digits' →
      SpellsChar c ('\\' :: 'u' :: (digits ++ '\\' :: 'u' :: digits'))

/-- The texts of a string, between its quotes. -/
inductive SpellsChars : List Char → List Char → Prop
  | nil : SpellsChars [] []
  | cons {c : Char} {cs text rest : List Char} :
      SpellsChar c text → SpellsChars cs rest → SpellsChars (c :: cs) (text ++ rest)

/-! ## Numbers -/

/-- The texts of a power of ten. -/
inductive SpellsPower : Option Int → List Char → Prop
  | absent : SpellsPower none []
  | unsigned {e : Char} {digits : List Char} : e = 'e' ∨ e = 'E' → IsDigits digits →
      SpellsPower (some (Nat.ofDigitChars 10 digits 0 : Nat)) (e :: digits)
  | plus {e : Char} {digits : List Char} : e = 'e' ∨ e = 'E' → IsDigits digits →
      SpellsPower (some (Nat.ofDigitChars 10 digits 0 : Nat)) (e :: '+' :: digits)
  | minus {e : Char} {digits : List Char} : e = 'e' ∨ e = 'E' → IsDigits digits →
      SpellsPower (some (-(Nat.ofDigitChars 10 digits 0 : Nat))) (e :: '-' :: digits)

/-- The texts of a number, which differ in the power of ten only. -/
structure SpellsNumeral (numeral : Numeral) (text : List Char) : Prop where
  whole : IsDigits numeral.whole
  /-- A zero in front is the only digit there. -/
  leadingZero : numeral.whole.head? = some '0' → numeral.whole = ['0']
  fraction : ∀ digits ∈ numeral.fraction, IsDigits digits
  parts : ∃ power, SpellsPower numeral.exponent power ∧
    text = (if numeral.negative then ['-'] else []) ++ numeral.whole ++
      Numeral.fractionText numeral.fraction ++ power

/-! ## Values -/

/-- A field of an object, with a text of its name and a text of its value. -/
structure SpelledField where
  name : String
  nameText : List Char
  value : Value
  valueText : List Char

namespace SpelledField

/-- The text of the whole field. -/
def text (field : SpelledField) : List Char := field.nameText ++ ':' :: field.valueText

/-- The field without its texts. -/
def field (field : SpelledField) : String × Value := (field.name, field.value)

end SpelledField

/-- The texts of a value. -/
inductive Spells : Value → List Char → Prop
  | null : Spells .null ['n', 'u', 'l', 'l']
  | true : Spells (.bool true) ['t', 'r', 'u', 'e']
  | false : Spells (.bool false) ['f', 'a', 'l', 's', 'e']
  | number {numeral : Numeral} {text : List Char} :
      SpellsNumeral numeral text → Spells (.number numeral) text
  | string {characters : String} {text : List Char} :
      SpellsChars characters.toList text → Spells (.string characters) ('"' :: (text ++ ['"']))
  | emptyArray {gap : List Char} : (∀ c ∈ gap, isBlank c = true) →
      Spells (.array []) ('[' :: (gap ++ [']']))
  /-- The elements with their texts, and commas between them. -/
  | array {items : List (Value × List Char)} : items ≠ [] →
      (∀ item ∈ items, Spells item.1 item.2) →
      Spells (.array (items.map Prod.fst))
        ('[' :: (List.intercalate [','] (items.map Prod.snd) ++ [']']))
  | emptyObject {gap : List Char} : (∀ c ∈ gap, isBlank c = true) →
      Spells (.object []) ('{' :: (gap ++ ['}']))
  /-- The fields with their texts, and commas between them. -/
  | object {fields : List SpelledField} : fields ≠ [] →
      (∀ field ∈ fields, Spells (.string field.name) field.nameText) →
      (∀ field ∈ fields, Spells field.value field.valueText) →
      Spells (.object (fields.map SpelledField.field))
        ('{' :: (List.intercalate [','] (fields.map SpelledField.text) ++ ['}']))
  /-- White space on both sides. -/
  | around {value : Value} {front text back : List Char} :
      (∀ c ∈ front, isBlank c = true) → (∀ c ∈ back, isBlank c = true) → Spells value text →
      Spells value (front ++ text ++ back)

/-! ## What is written is spelled by the grammar -/

theorem spellsChar_escapeChar (c : Char) : SpellsChar c (escapeChar c) := by
  unfold escapeChar
  -- seven characters are escaped by a letter
  iterate 7
    split
    · next same =>
      subst same
      exact .lettered rfl
  split
  · next control =>
    have small : c.toNat < 32 := control
    refine .numbered ⟨0, 0, c.toNat / 16, c.toNat % 16, ?_, by omega⟩
    have zero : hexValue? '0' = some 0 := by decide
    have first : hexValue? (Nat.digitChar (c.toNat / 16)) = _ := hexValue?_digitChar (by omega)
    have second : hexValue? (Nat.digitChar (c.toNat % 16)) = _ := hexValue?_digitChar (by omega)
    rw [List.map_cons, List.map_cons, List.map_cons, List.map_singleton, zero, first, second]
  · next quote backslash _ _ _ _ _ control =>
    exact .plain (Char.not_lt.mp control) quote backslash

theorem spellsChars_flatMap (cs : List Char) : SpellsChars cs (cs.flatMap escapeChar) := by
  induction cs with
  | nil => exact .nil
  | cons c cs ih => exact .cons (spellsChar_escapeChar c) ih

theorem spells_quoted (text : String) : Spells (.string text) (quoted text) :=
  .string (spellsChars_flatMap text.toList)

theorem spellsPower_exponentText (exponent : Option Int) :
    SpellsPower exponent (Numeral.exponentText exponent) := by
  have digits : ∀ n : Nat, n = Nat.ofDigitChars 10 (Nat.toDigits 10 n) 0 := by simp
  cases exponent with
  | none => exact .absent
  | some power =>
      cases power with
      | ofNat n =>
          have unsigned := SpellsPower.unsigned (.inl rfl) (isDigits_toDigits n)
          rwa [← digits n, ← toList_toString_ofNat] at unsigned
      | negSucc n =>
          have minus := SpellsPower.minus (.inl rfl) (isDigits_toDigits (n + 1))
          rwa [← digits (n + 1), ← toList_toString_negSucc] at minus

theorem Numeral.IsReadable.spells {numeral : Numeral} (readable : numeral.IsReadable) :
    SpellsNumeral numeral numeral.text where
  whole := readable.whole
  leadingZero := readable.leadingZero
  fraction := readable.fraction
  parts := ⟨_, spellsPower_exponentText _, numeral.text_eq⟩

/-! ### Entries

The elements of an array and the fields of an object are written alike, so that one lemma serves
both. -/

/-- An entry of an array or object, with the white space on both sides. -/
structure Padded (α : Type) where
  entry : α
  front : List Char
  back : List Char
  front_blank : ∀ c ∈ front, isBlank c = true
  back_blank : ∀ c ∈ back, isBlank c = true

section Entries

variable {α : Type} (layout : Layout) (depth : Nat) (close : Char) (write : α → List Char)

/-- An entry as it is written, with the white space around it. -/
def Padded.text (padded : Padded α) : List Char :=
  padded.front ++ (write padded.entry ++ padded.back)

/-- What is written behind an entry: the others, and the bracket that closes them. -/
def writtenBehind : List α → List Char
  | [] => layout.gap depth ++ [close]
  | entry :: entries =>
    ',' :: (layout.gap (depth + 1) ++ (write entry ++ writtenBehind entries))

/-- What is written for some entries is their texts with commas between them. -/
theorem exists_padded (entry : α) (entries : List α) :
    ∃ padded : List (Padded α), padded ≠ [] ∧ padded.map Padded.entry = entry :: entries ∧
      layout.gap (depth + 1) ++ (write entry ++ writtenBehind layout depth close write entries) =
        List.intercalate [','] (padded.map (Padded.text write)) ++ [close] := by
  induction entries generalizing entry with
  | nil =>
      -- the gap in front of the bracket goes with the last entry
      refine ⟨[⟨entry, _, _, layout.gap_blank (depth + 1), layout.gap_blank depth⟩], by simp, rfl, ?_⟩
      simp [writtenBehind, Padded.text]
  | cons next entries ih =>
      obtain ⟨padded, nonempty, same, whole⟩ := ih next
      obtain ⟨second, padded, rfl⟩ := List.exists_cons_of_ne_nil nonempty
      refine ⟨⟨entry, _, [], layout.gap_blank (depth + 1), List.forall_mem_nil _⟩ ::
        second :: padded, by simp, by rw [List.map_cons, same], ?_⟩
      rw [writtenBehind, whole]
      simp only [List.map_cons, List.intercalate_cons_cons]
      simp [Padded.text]

end Entries

/-! ### Values -/

namespace Value

variable {layout : Layout} {depth : Nat}

/-- A field as it is written. -/
def writtenField (layout : Layout) (depth : Nat) (field : String × Value) : List Char :=
  quoted field.1 ++ ':' :: (layout.behindColon ++ written layout depth field.2)

theorem writtenElements_eq (layout : Layout) (depth : Nat) (values : List Value) :
    writtenElements layout depth values =
      writtenBehind layout depth ']' (written layout (depth + 1)) values := by
  induction values with
  | nil => rfl
  | cons value values ih => rw [writtenElements, writtenBehind, ih]

theorem writtenFields_eq (layout : Layout) (depth : Nat) (fields : List (String × Value)) :
    writtenFields layout depth fields =
      writtenBehind layout depth '}' (writtenField layout (depth + 1)) fields := by
  induction fields with
  | nil => rfl
  | cons field fields ih =>
      rw [writtenFields, writtenBehind, ih, writtenField]
      simp

theorem written_object_cons (layout : Layout) (depth : Nat) (field : String × Value)
    (fields : List (String × Value)) :
    written layout depth (object (field :: fields)) =
      '{' :: (layout.gap (depth + 1) ++ (writtenField layout (depth + 1) field ++
        writtenBehind layout depth '}' (writtenField layout (depth + 1)) fields)) := by
  rw [written, writtenFields_eq, writtenField]
  simp

theorem spells_array {values : List Value}
    (all : ∀ value ∈ values, Spells value (written layout (depth + 1) value)) :
    Spells (array values) (written layout depth (array values)) := by
  cases values with
  | nil => exact .emptyArray (List.forall_mem_nil _)
  | cons value values =>
      obtain ⟨padded, nonempty, entries, whole⟩ :=
        exists_padded layout depth ']' (written layout (depth + 1)) value values
      let spelled (element : Padded Value) : Value × List Char :=
        (element.entry, element.text (written layout (depth + 1)))
      have each : ∀ item ∈ padded.map spelled, Spells item.1 item.2 := by
        rw [List.forall_mem_map]
        intro element member
        have inside : element.entry ∈ value :: values := entries ▸ List.mem_map_of_mem member
        have around := Spells.around element.front_blank element.back_blank (all _ inside)
        rwa [List.append_assoc] at around
      have array := Spells.array (by simpa using nonempty) each
      rw [List.map_map, List.map_map] at array
      rw [written, writtenElements_eq, whole, ← entries]
      exact array

theorem spells_object {fields : List (String × Value)}
    (all : ∀ field ∈ fields, Spells field.2 (written layout (depth + 1) field.2)) :
    Spells (object fields) (written layout depth (object fields)) := by
  cases fields with
  | nil => exact .emptyObject (List.forall_mem_nil _)
  | cons field fields =>
      obtain ⟨padded, nonempty, entries, whole⟩ :=
        exists_padded layout depth '}' (writtenField layout (depth + 1)) field fields
      -- the white space in front goes with the name, the one behind with the value
      let spelled (member : Padded (String × Value)) : SpelledField :=
        ⟨member.entry.1, member.front ++ quoted member.entry.1 ++ [], member.entry.2,
          layout.behindColon ++ written layout (depth + 1) member.entry.2 ++ member.back⟩
      have names : ∀ item ∈ padded.map spelled, Spells (.string item.name) item.nameText := by
        rw [List.forall_mem_map]
        intro member _
        exact .around member.front_blank (List.forall_mem_nil _) (spells_quoted _)
      have values : ∀ item ∈ padded.map spelled, Spells item.value item.valueText := by
        rw [List.forall_mem_map]
        intro member found
        have inside : member.entry ∈ field :: fields := entries ▸ List.mem_map_of_mem found
        exact .around layout.behindColon_blank member.back_blank (all _ inside)
      have object := Spells.object (by simpa using nonempty) names values
      rw [List.map_map, List.map_map] at object
      have texts : padded.map (SpelledField.text ∘ spelled) =
          padded.map (Padded.text (writtenField layout (depth + 1))) := by
        refine List.map_congr_left fun member _ => ?_
        simp [SpelledField.text, spelled, Padded.text, writtenField]
      rw [written_object_cons, whole, ← entries, ← texts]
      exact object

/-- What is written is one of the texts of the value, in whatever layout. -/
theorem IsReadable.spells_written {value : Value} (readable : value.IsReadable) (layout : Layout)
    (depth : Nat) : Spells value (written layout depth value) := by
  induction readable generalizing depth with
  | null => exact .null
  | bool value =>
      cases value with
      | true => exact .true
      | false => exact .false
  | number one => exact .number one.spells
  | string text => exact spells_quoted text
  | array _ ih => exact spells_array fun value member => ih value member (depth + 1)
  | object _ ih => exact spells_object fun field member => ih field member (depth + 1)

theorem IsReadable.spells_compact {value : Value} (readable : value.IsReadable) :
    Spells value value.compact :=
  compact_eq_written 0 value ▸ readable.spells_written .compact 0

theorem IsReadable.spells_indented {value : Value} (readable : value.IsReadable) :
    Spells value (value.indented 0) :=
  indented_eq_written 0 value ▸ readable.spells_written .indented 0

end Value

/-! ## One line

Strings and numbers have no control characters, so line ends can only come from the white space of
the layout. -/

/-- A text without control characters; it stays on one line. -/
def IsOneLine (text : List Char) : Prop := ∀ c ∈ text, ' ' ≤ c

instance (text : List Char) : Decidable (IsOneLine text) :=
  List.decidableBAll (fun c => ' ' ≤ c) text

namespace IsOneLine

variable {text text' : List Char} {c : Char}

theorem nil : IsOneLine [] := List.forall_mem_nil _

theorem cons (first : ' ' ≤ c) (rest : IsOneLine text) : IsOneLine (c :: text) :=
  List.forall_mem_cons.mpr ⟨first, rest⟩

theorem tail (all : IsOneLine (c :: text)) : IsOneLine text := (List.forall_mem_cons.mp all).2

theorem append (front : IsOneLine text) (back : IsOneLine text') : IsOneLine (text ++ text') :=
  List.forall_mem_append.mpr ⟨front, back⟩

theorem of_isDigits (digits : IsDigits text) : IsOneLine text := by
  intro c member
  have digit : '0' ≤ c := by
    have bounds := digits.2 c member
    rw [Char.isDigit, Bool.and_eq_true, decide_eq_true_eq] at bounds
    exact bounds.1
  exact Char.le_trans (by decide) digit

end IsOneLine

theorem isOneLine_escapeChar (c : Char) : IsOneLine (escapeChar c) := by
  have hex : ∀ n < 16, ' ' ≤ Nat.digitChar n := by decide
  unfold escapeChar
  iterate 7
    split
    · exact .cons (by decide) (.cons (by decide) .nil)
  split
  · next control =>
    have small : c.toNat < 32 := control
    iterate 4
      refine .cons (by decide) ?_
    exact .cons (hex _ (by omega)) (.cons (hex _ (by omega)) .nil)
  · next plain => exact .cons (Char.not_lt.mp plain) .nil

theorem isOneLine_quoted (text : String) : IsOneLine (quoted text) := by
  refine .cons (by decide) (.append ?_ (.cons (by decide) .nil))
  exact List.forall_mem_flatMap.mpr fun c _ => isOneLine_escapeChar c

theorem SpellsPower.isOneLine {exponent : Option Int} {text : List Char}
    (power : SpellsPower exponent text) : IsOneLine text := by
  cases power with
  | absent => exact .nil
  | unsigned letter digits =>
      refine .cons ?_ (.of_isDigits digits)
      rcases letter with rfl | rfl <;> decide
  | plus letter digits =>
      refine .cons ?_ (.cons (by decide) (.of_isDigits digits))
      rcases letter with rfl | rfl <;> decide
  | minus letter digits =>
      refine .cons ?_ (.cons (by decide) (.of_isDigits digits))
      rcases letter with rfl | rfl <;> decide

theorem SpellsNumeral.isOneLine {numeral : Numeral} {text : List Char}
    (spells : SpellsNumeral numeral text) : IsOneLine text := by
  obtain ⟨power, spellsPower, rfl⟩ := spells.parts
  have sign : IsOneLine (if numeral.negative then ['-'] else []) := by
    split
    · exact .cons (by decide) .nil
    · exact .nil
  have fraction : IsOneLine (Numeral.fractionText numeral.fraction) := by
    have digits := spells.fraction
    cases form : numeral.fraction with
    | none => exact .nil
    | some ds => exact .cons (by decide) (.of_isDigits (digits ds form))
  exact ((sign.append (.of_isDigits spells.whole)).append fraction).append spellsPower.isOneLine

theorem isOneLine_writtenBehind {α : Type} {close : Char} {write : α → List Char} {entries : List α}
    (closes : ' ' ≤ close) (all : ∀ entry ∈ entries, IsOneLine (write entry)) (depth : Nat) :
    IsOneLine (writtenBehind .compact depth close write entries) := by
  induction entries with
  | nil => exact .append .nil (.cons closes .nil)
  | cons entry entries ih =>
      have others := ih fun other member => all other (List.mem_cons_of_mem _ member)
      exact .cons (by decide) (.append .nil (.append (all entry List.mem_cons_self) others))

namespace Value

/-- The layout without any space keeps a value on one line. -/
theorem IsReadable.isOneLine_written {value : Value} (readable : value.IsReadable) (depth : Nat) :
    IsOneLine (written .compact depth value) := by
  induction readable generalizing depth with
  | null => exact (by decide : IsOneLine ['n', 'u', 'l', 'l'])
  | bool value =>
      cases value with
      | true => exact (by decide : IsOneLine ['t', 'r', 'u', 'e'])
      | false => exact (by decide : IsOneLine ['f', 'a', 'l', 's', 'e'])
  | number one => exact one.spells.isOneLine
  | string text => exact isOneLine_quoted text
  | @array values _ ih =>
      have all := isOneLine_writtenBehind (show ' ' ≤ ']' by decide)
        (fun value member => ih value member (depth + 1)) depth
      cases values with
      | nil => exact (by decide : IsOneLine ['[', ']'])
      | cons value values =>
          rw [written, writtenElements_eq]
          exact .cons (by decide) all.tail
  | @object fields _ ih =>
      have each : ∀ field ∈ fields, IsOneLine (writtenField .compact (depth + 1) field) :=
        fun field member => .append (isOneLine_quoted field.1)
          (.cons (by decide) (.append .nil (ih field member (depth + 1))))
      have all := isOneLine_writtenBehind (show ' ' ≤ '}' by decide) each depth
      cases fields with
      | nil => exact (by decide : IsOneLine ['{', '}'])
      | cons field fields =>
          rw [written_object_cons]
          exact .cons (by decide) all.tail

theorem IsReadable.isOneLine_compact {value : Value} (readable : value.IsReadable) :
    IsOneLine value.compact :=
  compact_eq_written 0 value ▸ readable.isOneLine_written 0

end Value

end Specimen.Json
