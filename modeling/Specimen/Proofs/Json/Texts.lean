/-
# Specimen.Proofs.Json.Texts — every text of a value is read.

The round trip is about the one text that is written.  Here the readers meet all the texts that the
grammar allows, with white space wherever it may stand and with characters escaped in any way.  A
reader does not take the white space behind a value, so what it leaves is the text behind up to some
white space; `TakesText` says that much of a reader, and the readers of arrays and objects have it
from the readers of what is inside.

What is skipped is not kept, and the value that a skipping reader makes is not always the one that
was written: it takes the halves of a surrogate pair for two characters.  It takes the same text all
the same, and that is what is proved of it.
-/
import Specimen.Proofs.Json.Spelling

namespace Specimen.Json

/-! ## Strings -/

theorem readHex_append {n : Nat} {digits : List Char} (hex : SpellsHex n digits)
    (rest : List Char) : readHex (digits ++ rest) = .ok (n, rest) := by
  obtain ⟨a, b, c, d, values, rfl⟩ := hex
  simp only [List.map_eq_cons_iff, List.map_eq_nil_iff] at values
  obtain ⟨p, _, rfl, first, q, _, rfl, second, r, _, rfl, third, s, _, rfl, fourth, rfl⟩ := values
  simp only [List.cons_append, List.nil_append, readHex, first, second, third, fourth]

/-- No character is half of a surrogate pair. -/
theorem not_surrogate (c : Char) :
    isLowSurrogate c.toNat = false ∧ isHighSurrogate c.toNat = false := by
  have valid : c.toNat < 0xd800 ∨ 0xdfff < c.toNat ∧ c.toNat < 0x110000 := c.valid
  simp only [isLowSurrogate, isHighSurrogate, Bool.and_eq_false_imp, decide_eq_true_eq,
    decide_eq_false_iff_not]
  omega

theorem readNumberedEscape_numbered (care : Care) {c : Char} {digits : List Char}
    (hex : SpellsHex c.toNat digits) (rest : List Char) :
    readNumberedEscape care (digits ++ rest) = .ok (c, rest) := by
  obtain ⟨low, high⟩ := not_surrogate c
  rw [readNumberedEscape, readHex_append hex]
  cases care <;> simp [low, high]

theorem readNumberedEscape_paired {c : Char} {high low : Nat} {digits digits' : List Char}
    (isHigh : isHighSurrogate high = true) (isLow : isLowSurrogate low = true)
    (together : c.toNat = (high - 0xd800) * 0x400 + (low - 0xdc00) + 0x10000)
    (hex : SpellsHex high digits) (hex' : SpellsHex low digits') (rest : List Char) :
    readNumberedEscape .wanted (digits ++ '\\' :: 'u' :: (digits' ++ rest)) = .ok (c, rest) := by
  have notLow : isLowSurrogate high = false := by
    simp only [isHighSurrogate, Bool.and_eq_true, decide_eq_true_eq] at isHigh
    simp only [isLowSurrogate, Bool.and_eq_false_imp, decide_eq_true_eq, decide_eq_false_iff_not]
    omega
  have second : readSecondHalf high ('\\' :: 'u' :: (digits' ++ rest)) = .ok (c, rest) := by
    rw [readSecondHalf, readHex_append hex']
    simp only [isLow, if_true, ← together, Char.ofNat_toNat]
  rw [readNumberedEscape, readHex_append hex]
  simp only [notLow, isHigh, Bool.false_eq_true, if_false, if_true, second]

/-- A character is read from any of its texts.  A skipped one may be read as other characters. -/
theorem SpellsChar.exists_read (care : Care) {c : Char} {text : List Char}
    (spelled : SpellsChar c text) :
    ∃ read, (care = .wanted → read = [c]) ∧ ∀ before rest,
      readCharacters care before (text ++ rest) =
        readCharacters care (read.reverse ++ before) rest := by
  cases spelled with
  | plain control quote backslash =>
      exact ⟨[c], fun _ => rfl,
        readCharacters_plain quote backslash (Char.not_lt.mpr control)⟩
  | lettered means => exact ⟨[c], fun _ => rfl, readCharacters_lettered means⟩
  | numbered hex =>
      refine ⟨[c], fun _ => rfl, fun before rest => readCharacters_escape ?_ before⟩
      exact readNumberedEscape_numbered care hex rest
  | @paired high low digits digits' isHigh isLow together hex hex' =>
      cases care with
      | wanted =>
          refine ⟨[c], fun _ => rfl, fun before rest => ?_⟩
          simp only [List.cons_append, List.append_assoc]
          refine readCharacters_escape ?_ before
          exact readNumberedEscape_paired isHigh isLow together hex hex' rest
      | skipped =>
          -- each half is read as a character by itself
          have half {n : Nat} {digits : List Char} (hex : SpellsHex n digits)
              (before rest : List Char) :
              readCharacters .skipped before ('\\' :: 'u' :: (digits ++ rest)) =
                readCharacters .skipped (Char.ofNat n :: before) rest := by
            refine readCharacters_escape ?_ before
            show readNumberedEscape .skipped (digits ++ rest) = _
            rw [readNumberedEscape, readHex_append hex]
          refine ⟨[Char.ofNat high, Char.ofNat low], fun wanted => ?_, fun before rest => ?_⟩
          · contradiction
          · simp only [List.cons_append, List.append_assoc]
            rw [half hex, half hex']
            rfl

theorem SpellsChars.exists_read (care : Care) {characters text : List Char}
    (spelled : SpellsChars characters text) :
    ∃ read, (care = .wanted → read = characters) ∧ ∀ before rest,
      readCharacters care before (text ++ '"' :: rest) = .ok (before.reverse ++ read, rest) := by
  induction spelled with
  | nil =>
      refine ⟨[], fun _ => rfl, fun before rest => ?_⟩
      rw [List.nil_append, readCharacters, if_pos rfl, List.append_nil]
  | @cons c cs text more one _ ih =>
      obtain ⟨first, same, takes⟩ := one.exists_read care
      obtain ⟨others, same', takes'⟩ := ih
      refine ⟨first ++ others, fun wanted => by rw [same wanted, same' wanted]; rfl, ?_⟩
      intro before rest
      rw [List.append_assoc, takes, takes', List.reverse_append, List.reverse_reverse,
        List.append_assoc]

/-- A string is read from any of its texts, up to its closing quote. -/
theorem exists_readString (care : Care) {characters : String} {text : List Char}
    (spelled : SpellsChars characters.toList text) :
    ∃ read, (care = .wanted → read = characters) ∧ ∀ rest,
      readString care (text ++ '"' :: rest) = .ok (read, rest) := by
  obtain ⟨read, same, takes⟩ := spelled.exists_read care
  refine ⟨String.ofList read, fun wanted => by rw [same wanted, String.ofList_toList], ?_⟩
  intro rest
  rw [readString, takes]
  rfl

/-! ## Numbers -/

section Numbers

variable {care : Care} {rest : List Char}

theorem readPower_digits {digits : List Char} (isDigits : IsDigits digits)
    (ends : EndsDigits rest) :
    readPower care (digits ++ rest) = .ok ((Nat.ofDigitChars 10 digits 0 : Nat), rest) := by
  have read := readDigits_append care isDigits ends
  obtain ⟨d, ds, rfl⟩ := List.exists_cons_of_ne_nil isDigits.1
  have digit : d.isDigit = true := isDigits.2 d List.mem_cons_self
  rw [List.cons_append] at read ⊢
  unfold readPower
  split
  · next plus =>
    obtain rfl := (List.cons.inj plus).1
    cases digit
  · next minus =>
    obtain rfl := (List.cons.inj minus).1
    cases digit
  · rw [read]
    rfl

theorem SpellsPower.readExponent {exponent : Option Int} {text : List Char}
    (spelled : SpellsPower exponent text) (ends : EndsNumber rest) :
    readExponent care (text ++ rest) = .ok (exponent, rest) := by
  cases spelled with
  | absent => exact readExponent_append none ends
  | unsigned letter digits =>
      rw [List.cons_append, Json.readExponent, if_pos letter,
        readPower_digits digits ends.endsDigits]
      rfl
  | plus letter digits | minus letter digits =>
      rw [List.cons_append, List.cons_append, Json.readExponent, if_pos letter, readPower,
        readDigits_append care digits ends.endsDigits]
      rfl

theorem SpellsPower.stops {exponent : Option Int} {text : List Char}
    (spelled : SpellsPower exponent text) (ends : EndsNumber rest) :
    ∀ c ∈ (text ++ rest).head?, c.isDigit = false ∧ c ≠ '.' := by
  have mark {e : Char} (letter : e = 'e' ∨ e = 'E') : e.isDigit = false ∧ e ≠ '.' := by
    rcases letter with rfl | rfl <;> decide
  cases spelled with
  | absent => exact fun c first => ⟨(ends c first).1, (ends c first).2.1⟩
  | unsigned letter | plus letter | minus letter =>
      rintro c ⟨⟩
      exact mark letter

/-- A number is read from any of its texts, if it is skipped or in range. -/
theorem SpellsNumeral.readNumeral {numeral : Numeral} {text : List Char}
    (spelled : SpellsNumeral numeral text) (inRange : care = .wanted → numeral.overflows = false)
    (ends : EndsNumber rest) : readNumeral care (text ++ rest) = .ok (numeral, rest) := by
  obtain ⟨whole, leadingZero, fraction, power, spelledPower, rfl⟩ := spelled
  have exponentRead : readExponent care _ = _ := spelledPower.readExponent ends
  have any := readAnyNumeral_append whole leadingZero fraction (spelledPower.stops ends)
    exponentRead
  rw [Json.readNumeral, any]
  have passes : ¬ (care = .wanted ∧ numeral.overflows = true) := by
    rintro ⟨wanted, tooLarge⟩
    simp [inRange wanted] at tooLarge
  exact if_neg passes

/-- A number starts with a minus or a digit. -/
theorem SpellsNumeral.exists_cons {numeral : Numeral} {text : List Char}
    (spelled : SpellsNumeral numeral text) :
    ∃ c cs, text = c :: cs ∧ (c = '-' ∨ c.isDigit = true) := by
  obtain ⟨whole, -, -, power, -, rfl⟩ := spelled
  obtain ⟨d, ds, shape⟩ := List.exists_cons_of_ne_nil whole.1
  have digit : d.isDigit = true := whole.2 d (shape ▸ List.mem_cons_self)
  rw [shape]
  cases numeral.negative with
  | true => exact ⟨_, _, rfl, .inl rfl⟩
  | false => exact ⟨_, _, rfl, .inr digit⟩

end Numbers

/-! ## White space around a text -/

/-- The texts of a value with no white space around them. -/
def SpellsBare : Value → List Char → Prop
  | .null, text => text = ['n', 'u', 'l', 'l']
  | .bool true, text => text = ['t', 'r', 'u', 'e']
  | .bool false, text => text = ['f', 'a', 'l', 's', 'e']
  | .number numeral, text => SpellsNumeral numeral text
  | .string characters, text =>
    ∃ inner, SpellsChars characters.toList inner ∧ text = '"' :: (inner ++ ['"'])
  | .array values, text =>
    ∃ inner, text = '[' :: (inner ++ [']']) ∧
      (values = [] ∧ (∀ c ∈ inner, isBlank c = true) ∨
        ∃ texts, texts ≠ [] ∧ List.Forall₂ Spells values texts ∧
          inner = List.intercalate [','] texts)
  | .object fields, text =>
    ∃ inner, text = '{' :: (inner ++ ['}']) ∧
      (fields = [] ∧ (∀ c ∈ inner, isBlank c = true) ∨
        ∃ spelled : List SpelledField, spelled ≠ [] ∧ fields = spelled.map SpelledField.field ∧
          (∀ field ∈ spelled, Spells (.string field.name) field.nameText) ∧
          (∀ field ∈ spelled, Spells field.value field.valueText) ∧
          inner = List.intercalate [','] (spelled.map SpelledField.text))

theorem forall₂_spells {items : List (Value × List Char)}
    (each : ∀ item ∈ items, Spells item.1 item.2) :
    List.Forall₂ Spells (items.map Prod.fst) (items.map Prod.snd) := by
  rw [List.forall₂_map_left_iff, List.forall₂_map_right_iff, List.forall₂_same]
  exact each

/-- A text of a value is one without white space around it, in white space. -/
theorem exists_bare {value : Value} {text : List Char} (spelled : Spells value text) :
    ∃ front core back, (∀ c ∈ front, isBlank c = true) ∧ (∀ c ∈ back, isBlank c = true) ∧
      SpellsBare value core ∧ text = front ++ core ++ back := by
  have bare {value : Value} {core : List Char} (spelled : SpellsBare value core) :
      ∃ front core' back, (∀ c ∈ front, isBlank c = true) ∧ (∀ c ∈ back, isBlank c = true) ∧
        SpellsBare value core' ∧ core = front ++ core' ++ back :=
    ⟨[], core, [], List.forall_mem_nil _, List.forall_mem_nil _, spelled, by simp⟩
  induction spelled with
  | null | true | false => exact bare rfl
  | number one => exact bare one
  | string characters => exact bare ⟨_, characters, rfl⟩
  | emptyArray blank => exact bare ⟨_, rfl, .inl ⟨rfl, blank⟩⟩
  | array nonempty each =>
      exact bare ⟨_, rfl, .inr ⟨_, by simpa using nonempty, forall₂_spells each, rfl⟩⟩
  | emptyObject blank => exact bare ⟨_, rfl, .inl ⟨rfl, blank⟩⟩
  | object nonempty names values =>
      exact bare ⟨_, rfl, .inr ⟨_, nonempty, rfl, names, values, rfl⟩⟩
  | @around value before text behind white white' _ ih =>
      obtain ⟨front, core, back, blank, blank', core', rfl⟩ := ih
      refine ⟨before ++ front, core, back ++ behind, ?_, ?_, core', by simp⟩
      · exact List.forall_mem_append.mpr ⟨white, blank⟩
      · exact List.forall_mem_append.mpr ⟨blank', white'⟩

/-- A text without white space around it starts with a character that is neither blank nor the end
of an array. -/
theorem SpellsBare.exists_cons {value : Value} {text : List Char}
    (spelled : SpellsBare value text) :
    ∃ c cs, text = c :: cs ∧ isBlank c = false ∧ c ≠ ']' := by
  unfold SpellsBare at spelled
  split at spelled
  · exact ⟨_, _, spelled, by decide, by decide⟩
  · exact ⟨_, _, spelled, by decide, by decide⟩
  · exact ⟨_, _, spelled, by decide, by decide⟩
  · obtain ⟨c, cs, shape, first⟩ := spelled.exists_cons
    refine ⟨c, cs, shape, isBlank_of_first first, ?_⟩
    rintro rfl
    exact absurd first (by decide)
  · obtain ⟨inner, -, shape⟩ := spelled
    exact ⟨_, _, shape, by decide, by decide⟩
  · obtain ⟨inner, shape, -⟩ := spelled
    exact ⟨_, _, shape, by decide, by decide⟩
  · obtain ⟨inner, shape, -⟩ := spelled
    exact ⟨_, _, shape, by decide, by decide⟩

/-! ## Readers and texts -/

/-- The reader takes the text and makes this of it, up to white space at its end, whatever stands
behind the text and does not continue a number. -/
def TakesText {α : Type} (reader : List Char → Except Fault (α × List Char)) (value : α)
    (text : List Char) : Prop :=
  ∀ rest, EndsNumber rest → ∃ gap, (∀ c ∈ gap, isBlank c = true) ∧
    reader (text ++ rest) = .ok (value, gap ++ rest)

/-- The reader passes over white space in front. -/
def SkipsBlanks {β : Type} (reader : List Char → β) : Prop :=
  ∀ gap cs, (∀ c ∈ gap, isBlank c = true) → reader (gap ++ cs) = reader cs

section Readers

variable {α : Type} {reader : List Char → Except Fault (α × List Char)} {value : α}
  {values : List α} {text front core back : List Char} {texts : List (List Char)}

theorem takesText_of_exact
    (takes : ∀ rest, EndsNumber rest → reader (text ++ rest) = .ok (value, rest)) :
    TakesText reader value text :=
  fun rest ends => ⟨[], List.forall_mem_nil _, takes rest ends⟩

/-- White space around a text does not matter. -/
theorem TakesText.around (takes : TakesText reader value core) (skips : SkipsBlanks reader)
    (blank : ∀ c ∈ front, isBlank c = true) (blank' : ∀ c ∈ back, isBlank c = true) :
    TakesText reader value (front ++ core ++ back) := by
  intro rest ends
  obtain ⟨gap, blank'', read⟩ := takes _ (Value.endsNumber_gap blank' ends)
  refine ⟨gap ++ back, List.forall_mem_append.mpr ⟨blank'', blank'⟩, ?_⟩
  rw [List.append_assoc, List.append_assoc, skips front _ blank, read, List.append_assoc]

/-! ### Arrays -/

/-- Texts with commas between them are the first, and the others with a comma in front of each. -/
theorem intercalate_cons (text : List Char) (texts : List (List Char)) :
    List.intercalate [','] (text :: texts) = text ++ texts.flatMap (',' :: ·) := by
  induction texts generalizing text with
  | nil => simp
  | cons next texts ih => simp [List.intercalate_cons_cons, ih]

/-- What stands behind an element or a field does not continue a number. -/
theorem endsNumber_behind (close : Char)
    (closes : close.isDigit = false ∧ close ≠ '.' ∧ close ≠ 'e' ∧ close ≠ 'E')
    (texts : List (List Char)) (rest : List Char) :
    EndsNumber (texts.flatMap (',' :: ·) ++ close :: rest) := by
  cases texts with
  | nil => exact Value.endsNumber_cons closes rest
  | cons text texts => exact Value.endsNumber_cons (by decide) _

theorem readMoreElements_texts (takes : List.Forall₂ (TakesText reader) values texts) {steps : Nat}
    (enough : texts.length < steps) {gap : List Char} (blank : ∀ c ∈ gap, isBlank c = true)
    (rest : List Char) :
    readMoreElements reader steps (gap ++ (texts.flatMap (',' :: ·) ++ ']' :: rest)) =
      .ok (values, rest) := by
  induction takes generalizing steps gap with
  | nil =>
      obtain ⟨steps, rfl⟩ : ∃ n, steps = n + 1 := ⟨steps - 1, by omega⟩
      exact readMoreElements_close blank steps
  | @cons value text values texts one _ ih =>
      rw [List.length_cons] at enough
      obtain ⟨steps, rfl⟩ : ∃ n, steps = n + 1 := ⟨steps - 1, by omega⟩
      obtain ⟨gap', blank', first⟩ := one _ (endsNumber_behind ']' (by decide) texts rest)
      rw [List.flatMap_cons, List.cons_append, List.cons_append, List.append_assoc]
      exact readMoreElements_next blank first (ih (by omega) blank')

/-- If every text is taken, they are taken as the elements of an array. -/
theorem readElements_texts (skips : SkipsBlanks reader) {spelled : List Value}
    (spells : List.Forall₂ Spells spelled texts)
    (takes : List.Forall₂ (TakesText reader) values texts) (nonempty : texts ≠ []) {steps : Nat}
    (enough : texts.length ≤ steps) (rest : List Char) :
    readElements reader steps (List.intercalate [','] texts ++ ']' :: rest) =
      .ok (values, rest) := by
  cases takes with
  | nil => exact absurd rfl nonempty
  | @cons value text values texts one others =>
      obtain ⟨_, _, spelled, -, rfl⟩ := List.forall₂_cons_right_iff.mp spells
      obtain ⟨front, core, back, blank, -, bare, rfl⟩ := exists_bare spelled
      obtain ⟨c, cs, rfl, solid, opens⟩ := bare.exists_cons
      obtain ⟨gap, blank', first⟩ := one _ (endsNumber_behind ']' (by decide) texts rest)
      have more := readMoreElements_texts others enough blank' rest
      simp only [intercalate_cons, List.append_assoc, List.cons_append] at first ⊢
      rw [skips front _ blank] at first
      exact readElements_first blank solid opens first more

end Readers

/-! ### Objects -/

section Fields

variable {σ : Type} {field : σ → String → List Char → Except Fault (σ × List Char)} {care : Care}

/-- Any text of a string is its quotes with a text between them, in white space. -/
theorem exists_quotes {characters : String} {text : List Char}
    (spelled : Spells (.string characters) text) :
    ∃ front inner back, (∀ c ∈ front, isBlank c = true) ∧ (∀ c ∈ back, isBlank c = true) ∧
      SpellsChars characters.toList inner ∧ text = front ++ '"' :: (inner ++ '"' :: back) := by
  obtain ⟨front, core, back, blank, blank', ⟨inner, characters, rfl⟩, rfl⟩ := exists_bare spelled
  exact ⟨front, inner, back, blank, blank', characters, by simp⟩

/-- The reader of a field takes a field whose name has been read: it goes on behind the name's
quote. -/
def TakesField (field : σ → String → List Char → Except Fault (σ × List Char)) (before : σ)
    (name : String) (after : σ) (valueText : List Char) : Prop :=
  ∀ gap, (∀ c ∈ gap, isBlank c = true) →
    TakesText (fun cs => field before name (gap ++ ':' :: cs)) after valueText

/-- If the reader of a field takes each field and keeps something in doing so, the reader of the
object takes all fields, and it is kept at the end. -/
theorem readFieldsFrom_texts (keeps : List SpelledField → σ → Prop)
    (step : ∀ {one later before name}, keeps (one :: later) before →
      (care = .wanted → name = one.name) →
      ∃ after, keeps later after ∧ TakesField field before name after one.valueText)
    {one : SpelledField} {later : List SpelledField} {before : σ} {inner back : List Char}
    (kept : keeps (one :: later) before) (spelled : SpellsChars one.name.toList inner)
    (blank : ∀ c ∈ back, isBlank c = true)
    (names : ∀ field ∈ later, Spells (.string field.name) field.nameText) {steps : Nat}
    (enough : later.length < steps) :
    ∃ result, keeps [] result ∧ ∀ rest,
      readFieldsFrom care field steps before (inner ++ '"' :: (back ++ ':' :: (one.valueText ++
        ((later.map SpelledField.text).flatMap (',' :: ·) ++ '}' :: rest)))) =
          .ok (result, rest) := by
  induction later generalizing one before inner back steps with
  | nil =>
      obtain ⟨steps, rfl⟩ := Nat.exists_eq_add_one.mpr enough
      obtain ⟨name, same, named⟩ := exists_readString care spelled
      obtain ⟨after, kept', takes⟩ := step kept same
      refine ⟨after, kept', fun rest => ?_⟩
      obtain ⟨gap, blank', read⟩ := takes back blank _ (endsNumber_behind '}' (by decide) [] rest)
      exact readFieldsFrom_close (named _) blank' read steps
  | cons next later ih =>
      obtain ⟨steps, rfl⟩ := Nat.exists_eq_add_one.mpr (Nat.zero_lt_of_lt enough)
      obtain ⟨name, same, named⟩ := exists_readString care spelled
      obtain ⟨after, kept', takes⟩ := step kept same
      obtain ⟨nextName, names⟩ := List.forall_mem_cons.mp names
      obtain ⟨front, inner', back', blankFront, blankBack, spelled', shape⟩ :=
        exists_quotes nextName
      obtain ⟨result, kept'', others⟩ := ih kept' spelled' blankBack names
        (Nat.lt_of_succ_lt_succ enough)
      refine ⟨result, kept'', fun rest => ?_⟩
      obtain ⟨gap, blank', read⟩ := takes back blank _
        (endsNumber_behind '}' (by decide) ((next :: later).map SpelledField.text) rest)
      simp only [List.map_cons, List.flatMap_cons, SpelledField.text, shape, List.append_assoc,
        List.cons_append] at read ⊢
      rw [readFieldsFrom_next (named _) blank' blankFront read]
      exact others rest

/-- An object is read from any text of its fields. -/
theorem readFields_texts (keeps : List SpelledField → σ → Prop)
    (step : ∀ {one later before name}, keeps (one :: later) before →
      (care = .wanted → name = one.name) →
      ∃ after, keeps later after ∧ TakesField field before name after one.valueText)
    {fields : List SpelledField} {before : σ} (kept : keeps fields before) (nonempty : fields ≠ [])
    (names : ∀ field ∈ fields, Spells (.string field.name) field.nameText) {steps : Nat}
    (enough : fields.length ≤ steps) :
    ∃ result, keeps [] result ∧ ∀ rest,
      readFields care field steps before
        (List.intercalate [','] (fields.map SpelledField.text) ++ '}' :: rest) =
          .ok (result, rest) := by
  cases fields with
  | nil => exact absurd rfl nonempty
  | cons one later =>
      obtain ⟨nameOne, names⟩ := List.forall_mem_cons.mp names
      obtain ⟨front, inner, back, blankFront, blankBack, spelled, shape⟩ := exists_quotes nameOne
      obtain ⟨result, kept', read⟩ :=
        readFieldsFrom_texts keeps step kept spelled blankBack names enough
      refine ⟨result, kept', fun rest => ?_⟩
      simp only [List.map_cons, intercalate_cons, SpelledField.text, shape, List.append_assoc,
        List.cons_append]
      rw [readFields_first blankFront]
      exact read rest

end Fields

/-! ## Values that are skipped -/

theorem lengths_flatMap (texts : List (List Char)) :
    texts.length ≤ (texts.flatMap (',' :: ·)).length ∧
      ∀ text ∈ texts, text.length < (texts.flatMap (',' :: ·)).length := by
  induction texts with
  | nil => exact ⟨Nat.zero_le _, List.forall_mem_nil _⟩
  | cons text texts ih =>
      obtain ⟨count, each⟩ := ih
      simp only [List.flatMap_cons, List.length_append, List.length_cons]
      refine ⟨by omega, List.forall_mem_cons.mpr ⟨by omega, fun other member => ?_⟩⟩
      have := each other member
      omega

/-- Texts with commas between them are no shorter than any of them, and there are at most as many
as characters, and one more. -/
theorem lengths_intercalate (texts : List (List Char)) :
    texts.length ≤ (List.intercalate [','] texts).length + 1 ∧
      ∀ text ∈ texts, text.length ≤ (List.intercalate [','] texts).length := by
  cases texts with
  | nil => exact ⟨Nat.zero_le _, List.forall_mem_nil _⟩
  | cons text texts =>
      obtain ⟨count, each⟩ := lengths_flatMap texts
      rw [intercalate_cons, List.length_append, List.length_cons]
      refine ⟨by omega, List.forall_mem_cons.mpr ⟨by omega, fun other member => ?_⟩⟩
      have := each other member
      omega

theorem skipsBlanks_readValue (care : Care) (steps depth : Nat) :
    SkipsBlanks (readValue care steps depth) :=
  fun _ _ blank => readValue_gap blank

/-- What can be read of each text by itself can be read of them all. -/
theorem exists_forall₂ {α β : Type} {R : α → β → Prop} {texts : List β}
    (each : ∀ text ∈ texts, ∃ value, R value text) : ∃ values, List.Forall₂ R values texts := by
  induction texts with
  | nil => exact ⟨[], .nil⟩
  | cons text texts ih =>
      obtain ⟨⟨value, one⟩, others⟩ := List.forall_mem_cons.mp each
      obtain ⟨values, more⟩ := ih others
      exact ⟨value :: values, .cons one more⟩

theorem exists_takesText_array {values : List Value} {texts : List (List Char)}
    {steps depth : Nat} (nonempty : texts ≠ []) (spells : List.Forall₂ Spells values texts)
    (each : ∀ text ∈ texts, ∃ read, TakesText (readValue .skipped steps depth) read text)
    (enough : texts.length ≤ steps) :
    ∃ read, TakesText (readValue .skipped (steps + 1) (depth + 1)) read
      ('[' :: (List.intercalate [','] texts ++ [']'])) := by
  obtain ⟨read, takes⟩ := exists_forall₂ each
  refine ⟨.array read, takesText_of_exact fun rest _ => ?_⟩
  simp only [List.cons_append, List.append_assoc, List.nil_append]
  exact readValue_array
    (readElements_texts (skipsBlanks_readValue _ _ _) spells takes nonempty enough rest)

theorem takesField_readField {element : List Char → Except Fault (Value × List Char)}
    {value : Value} {text : List Char} (takes : TakesText element value text)
    (fields : List (String × Value)) (name : String) :
    TakesField (readField element) fields name ((name, value) :: fields) text := by
  intro gap blank rest ends
  obtain ⟨gap', blank', read⟩ := takes rest ends
  exact ⟨gap', blank', readField_colon blank read fields name⟩

theorem exists_takesText_object {fields : List SpelledField} {steps depth : Nat}
    (nonempty : fields ≠ [])
    (names : ∀ field ∈ fields, Spells (.string field.name) field.nameText)
    (each : ∀ field ∈ fields, ∃ read,
      TakesText (readValue .skipped steps depth) read field.valueText)
    (enough : fields.length ≤ steps) :
    ∃ read, TakesText (readValue .skipped (steps + 1) (depth + 1)) read
      ('{' :: (List.intercalate [','] (fields.map SpelledField.text) ++ ['}'])) := by
  -- what is kept is that the fields to come can be skipped, whatever has been gathered
  let keeps (later : List SpelledField) (_ : List (String × Value)) : Prop :=
    ∀ one ∈ later, ∃ read, TakesText (readValue .skipped steps depth) read one.valueText
  have start : keeps fields [] := each
  obtain ⟨result, -, read⟩ := readFields_texts keeps
    (fun {one later before name} kept _ => by
      obtain ⟨⟨read, takes⟩, others⟩ := List.forall_mem_cons.mp kept
      exact ⟨_, others, takesField_readField takes before name⟩)
    start nonempty names enough
  refine ⟨.object result.reverse, takesText_of_exact fun rest _ => ?_⟩
  simp only [List.cons_append, List.append_assoc, List.nil_append]
  apply readValue_object
  rw [List.reverse_reverse]
  exact read rest

/-- Any text of any value is skipped, however deep it is nested, if there are enough steps. -/
theorem exists_takesText {value : Value} {text : List Char} (spelled : Spells value text)
    {steps depth : Nat} (enough : text.length < steps) (room : text.length ≤ depth) :
    ∃ read, TakesText (readValue .skipped steps depth) read text := by
  obtain ⟨steps, rfl⟩ := Nat.exists_eq_add_one.mpr (Nat.zero_lt_of_lt enough)
  induction spelled generalizing steps depth with
  | null => exact ⟨_, takesText_of_exact fun _ _ => readValue_null⟩
  | true => exact ⟨_, takesText_of_exact fun _ _ => readValue_true⟩
  | false => exact ⟨_, takesText_of_exact fun _ _ => readValue_false⟩
  | @number numeral text one =>
      obtain ⟨c, cs, rfl, first⟩ := one.exists_cons
      refine ⟨.number numeral, takesText_of_exact fun rest ends => ?_⟩
      exact readValue_number first (one.readNumeral nofun ends)
  | string characters =>
      obtain ⟨read, -, takes⟩ := exists_readString .skipped characters
      refine ⟨.string read, takesText_of_exact fun rest _ => ?_⟩
      simp only [List.cons_append, List.append_assoc, List.nil_append]
      exact readValue_string (takes rest)
  | @emptyArray gap blank =>
      obtain ⟨depth, rfl⟩ := Nat.exists_eq_add_one.mpr (Nat.zero_lt_of_lt room)
      refine ⟨.array [], takesText_of_exact fun rest _ => ?_⟩
      simp only [List.cons_append, List.append_assoc, List.nil_append]
      exact readValue_array (readElements_empty blank steps)
  | @array items nonempty spelled ih =>
      obtain ⟨depth, rfl⟩ := Nat.exists_eq_add_one.mpr (Nat.zero_lt_of_lt room)
      obtain ⟨count, shorter⟩ := lengths_intercalate (items.map Prod.snd)
      simp only [List.length_cons, List.length_append, List.length_nil] at enough room
      obtain ⟨steps, rfl⟩ := Nat.exists_eq_add_one.mpr (show 0 < steps by omega)
      refine exists_takesText_array (by simpa using nonempty) (forall₂_spells spelled) ?_
        (by omega)
      refine List.forall_mem_map.mpr fun item member => ih item member ?_ steps ?_
      all_goals
        have := shorter item.2 (List.mem_map_of_mem member)
        omega
  | @emptyObject gap blank =>
      obtain ⟨depth, rfl⟩ := Nat.exists_eq_add_one.mpr (Nat.zero_lt_of_lt room)
      refine ⟨.object [], takesText_of_exact fun rest _ => ?_⟩
      simp only [List.cons_append, List.append_assoc, List.nil_append]
      exact readValue_object (readFields_empty blank steps)
  | @object fields nonempty names _ _ ih =>
      obtain ⟨depth, rfl⟩ := Nat.exists_eq_add_one.mpr (Nat.zero_lt_of_lt room)
      obtain ⟨count, shorter⟩ := lengths_intercalate (fields.map SpelledField.text)
      simp only [List.length_cons, List.length_append, List.length_nil, List.length_map]
        at enough room count
      obtain ⟨steps, rfl⟩ := Nat.exists_eq_add_one.mpr (show 0 < steps by omega)
      refine exists_takesText_object nonempty names
        (fun field member => ih field member ?_ steps ?_) (by omega)
      all_goals
        have := shorter field.text (List.mem_map_of_mem member)
        simp only [SpelledField.text, List.length_append, List.length_cons] at this
        omega
  | @around value front text back blank blank' _ ih =>
      simp only [List.length_append] at enough room
      have room' : text.length ≤ depth := by omega
      obtain ⟨read, takes⟩ := ih room' steps (by omega)
      exact ⟨read, takes.around (skipsBlanks_readValue _ _ _) blank blank'⟩

/-- Passing over a value takes any text of it. -/
theorem exists_skipValue {value : Value} {text rest : List Char} (spelled : Spells value text)
    (ends : EndsNumber rest) :
    ∃ gap, (∀ c ∈ gap, isBlank c = true) ∧ skipValue (text ++ rest) = .ok (gap ++ rest) := by
  have room : text.length ≤ (text ++ rest).length := by simp
  obtain ⟨read, takes⟩ := exists_takesText spelled (Nat.lt_succ_of_le room) room
  obtain ⟨gap, blank, skipped⟩ := takes rest ends
  refine ⟨gap, blank, ?_⟩
  rw [skipValue, skipped]
  rfl

end Specimen.Json
