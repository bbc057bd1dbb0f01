/-
# Specimen.Proofs.Config.Partial — settings of which only some are given.

A file of settings is an object in which each setting may stand or not, in any place, among any
other fields.  Whatever its text is, with its white space and its escapes, loading it gives what is
given and the defaults for the rest.

The fields are read one after the other.  What is read of a setting up to some field is either all
that there will be of it, or nothing, and then it may still come (`Awaits`); a field of another name
changes neither.
-/
import Specimen.Config.Reader
import Specimen.Proofs.Json.Texts

namespace Specimen.Config

open Json

/-! ## What an object gives -/

/-- The values that stand under this name, in their order. -/
def valuesOf (name : String) (fields : List (String × Value)) : List Value :=
  (fields.filter fun field => field.1 = name).map Prod.snd

theorem valuesOf_cons (name : String) (field : String × Value) (fields : List (String × Value)) :
    valuesOf name (field :: fields) =
      if field.1 = name then field.2 :: valuesOf name fields else valuesOf name fields := by
  by_cases same : field.1 = name <;> simp [valuesOf, same]

/-- The value is this string. -/
def IsText (text : String) (value : Value) : Prop := value = .string text

/-- The value is an array of these strings. -/
def IsTexts (texts : List String) (value : Value) : Prop := value = .array (texts.map .string)

/-- The value is this natural number, which has 64 bits and is written with digits only. -/
def IsWord (n : Nat) (value : Value) : Prop :=
  ∃ digits, value = .number ⟨false, digits, none, none⟩ ∧ Nat.ofDigitChars 10 digits 0 = n ∧
    n < Numeral.wordLimit

/-- Each setting stands at most once among the fields, with a value of its type, and these are the
settings that are given. -/
structure GivenBy (fields : List (String × Value)) (given : Given) : Prop where
  method : List.Forall₂ IsText given.method.toList (valuesOf "method" fields)
  indentWidth : List.Forall₂ IsWord given.indentWidth.toList (valuesOf "indent_width" fields)
  extensions : List.Forall₂ IsTexts given.extensions.toList (valuesOf "extensions" fields)

/-! ## Values of a given type -/

theorem skipsBlanks_readText : SkipsBlanks readText := by
  intro gap cs blank
  rw [readText, readText, skipBlanks_append blank]

theorem skipsBlanks_readNatural : SkipsBlanks readNatural := by
  intro gap cs blank
  rw [readNatural, readNatural, skipBlanks_append blank]

theorem skipsBlanks_readTexts : SkipsBlanks readTexts := by
  intro gap cs blank
  rw [readTexts, readTexts, skipBlanks_append blank]

/-- A string is read from any of its texts. -/
theorem takesText_readText {characters : String} {text : List Char}
    (spelled : Spells (.string characters) text) : TakesText readText characters text := by
  obtain ⟨front, core, back, blank, blank', ⟨inner, inside, rfl⟩, rfl⟩ := exists_bare spelled
  obtain ⟨read, same, takes⟩ := exists_readString .wanted inside
  obtain rfl := same rfl
  refine TakesText.around (takesText_of_exact fun rest _ => ?_) skipsBlanks_readText blank blank'
  simp only [List.cons_append, List.append_assoc, List.nil_append]
  rw [readText, skipBlanks_cons (by decide)]
  exact takes rest

/-- A natural number is read from any of its texts. -/
theorem takesText_readNatural {n : Nat} {value : Value} {text : List Char} (word : IsWord n value)
    (spelled : Spells value text) : TakesText readNatural n text := by
  obtain ⟨digits, rfl, means, small⟩ := word
  have fits : Nat.ofDigitChars 10 digits 0 < Numeral.wordLimit := means ▸ small
  have natural : Numeral.natural? ⟨false, digits, none, none⟩ = some n := by
    rw [Numeral.natural?, ← means]
    exact if_pos fits
  obtain ⟨front, core, back, blank, blank', numeral, rfl⟩ := exists_bare spelled
  change SpellsNumeral _ core at numeral
  refine TakesText.around (takesText_of_exact fun rest ends => ?_) skipsBlanks_readNatural blank
    blank'
  have read : readNumeral .wanted (core ++ rest) = _ :=
    numeral.readNumeral (fun _ => Numeral.overflows_of_lt fits) ends
  obtain ⟨c, cs, rfl, first⟩ := numeral.exists_cons
  rw [List.cons_append] at read ⊢
  rw [readNatural, skipBlanks_cons (isBlank_of_first first)]
  simp only [if_pos first, read, natural]

/-- An array of strings is read from any of its texts. -/
theorem takesText_readTexts {texts : List String} {text : List Char}
    (spelled : Spells (.array (texts.map .string)) text) : TakesText readTexts texts text := by
  obtain ⟨front, core, back, blank, blank', ⟨inner, rfl, contents⟩, rfl⟩ := exists_bare spelled
  refine TakesText.around (takesText_of_exact fun rest _ => ?_) skipsBlanks_readTexts blank blank'
  simp only [List.cons_append, List.append_assoc, List.nil_append]
  rw [readTexts, skipBlanks_cons (by decide)]
  show readElements readText _ _ = _
  rcases contents with ⟨none, gap⟩ | ⟨spellings, nonempty, each, rfl⟩
  · rw [List.map_eq_nil_iff.mp none]
    exact readElements_empty gap _
  · have takes : List.Forall₂ (TakesText readText) texts spellings :=
      (List.forall₂_map_left_iff.mp each).imp fun _ _ => takesText_readText
    refine readElements_texts skipsBlanks_readText each takes nonempty ?_ rest
    obtain ⟨count, -⟩ := lengths_intercalate spellings
    simp only [List.length_append, List.length_cons]
    omega

/-! ## Settings by name -/

section Settings

variable {α : Type} {shape : α → Value → Prop} {given before : Option α} {later : List Value}

/-- What has been read of a setting is all that is given of it, or there is nothing yet and the
values to come are what is given. -/
def Awaits (shape : α → Value → Prop) (given before : Option α) (later : List Value) : Prop :=
  before = given ∧ later = [] ∨ before = none ∧ List.Forall₂ shape given.toList later

theorem Awaits.of_cons {value : Value} (awaits : Awaits shape given before (value :: later)) :
    before = none ∧ ∃ one, shape one value ∧ Awaits shape given (some one) later := by
  rcases awaits with ⟨-, none⟩ | ⟨unread, coming⟩
  · contradiction
  · refine ⟨unread, ?_⟩
    cases given with
    | none => cases coming
    | some one =>
        cases coming with
        | cons isOne others =>
            cases others
            exact ⟨one, isOne, .inl ⟨rfl, rfl⟩⟩

theorem Awaits.eq_of_nil (awaits : Awaits shape given before []) : before = given := by
  rcases awaits with ⟨all, -⟩ | ⟨unread, coming⟩
  · exact all
  · cases given with
    | none => exact unread
    | some one => cases coming

end Settings

/-- A setting that has not been read yet is read from behind its name. -/
theorem takesField_setting {α : Type} {reader : List Char → Except Fault (α × List Char)} {one : α}
    {before : Given} {name : String} {text : List Char} (put : α → Given)
    (reads : ∀ cs, readSetting before name cs =
      (readOnce none reader cs).map fun (one, rest) => (put one, rest))
    (takes : TakesText reader one text) :
    TakesField readSetting before name (put one) text := by
  intro gap blank rest ends
  obtain ⟨gap', blank', read⟩ := takes rest ends
  refine ⟨gap', blank', ?_⟩
  simp only [reads, readOnce, Option.isSome_none, Bool.false_eq_true, if_false,
    readColon_append blank, Except.bind, read, Except.map]

/-- A field that is no setting is passed over. -/
theorem takesField_other {before : Given} {name : String} {value : Value} {text : List Char}
    (other : name ≠ "method" ∧ name ≠ "indent_width" ∧ name ≠ "extensions")
    (spelled : Spells value text) : TakesField readSetting before name before text := by
  intro gap blank rest ends
  obtain ⟨gap', blank', skipped⟩ := exists_skipValue spelled ends
  refine ⟨gap', blank', ?_⟩
  simp only [readSetting, other, if_false, readColon_append blank, Except.bind, skipped,
    Except.map]

/-- Between two fields: the values to come have texts, and each setting has been read or is still
to come. -/
structure Reading (given : Given) (later : List SpelledField) (before : Given) : Prop where
  values : ∀ field ∈ later, Spells field.value field.valueText
  method : Awaits IsText given.method before.method
    (valuesOf "method" (later.map SpelledField.field))
  indentWidth : Awaits IsWord given.indentWidth before.indentWidth
    (valuesOf "indent_width" (later.map SpelledField.field))
  extensions : Awaits IsTexts given.extensions before.extensions
    (valuesOf "extensions" (later.map SpelledField.field))

theorem GivenBy.reading {fields : List SpelledField} {given : Given}
    (gives : GivenBy (fields.map SpelledField.field) given)
    (values : ∀ field ∈ fields, Spells field.value field.valueText) : Reading given fields {} where
  values := values
  method := .inr ⟨rfl, gives.method⟩
  indentWidth := .inr ⟨rfl, gives.indentWidth⟩
  extensions := .inr ⟨rfl, gives.extensions⟩

theorem Reading.eq_of_nil {given before : Given} (reading : Reading given [] before) :
    before = given := by
  obtain ⟨-, method, indentWidth, extensions⟩ := reading
  obtain ⟨_, _, _⟩ := before
  cases method.eq_of_nil
  cases indentWidth.eq_of_nil
  cases extensions.eq_of_nil
  rfl

/-- A field is read, whether it is a setting or not. -/
theorem Reading.step {given before : Given} {one : SpelledField} {later : List SpelledField}
    {name : String} (reading : Reading given (one :: later) before) (same : name = one.name) :
    ∃ after, Reading given later after ∧
      TakesField readSetting before name after one.valueText := by
  obtain ⟨values, method, indentWidth, extensions⟩ := reading
  obtain ⟨spelled, values⟩ := List.forall_mem_cons.mp values
  subst same
  simp only [List.map_cons, valuesOf_cons, SpelledField.field] at method indentWidth extensions
  by_cases isMethod : one.name = "method"
  · simp only [isMethod, String.reduceEq, if_true, if_false] at method indentWidth extensions ⊢
    obtain ⟨unread, text, isText, method⟩ := method.of_cons
    refine ⟨{ before with method := some text }, ⟨values, method, indentWidth, extensions⟩, ?_⟩
    refine takesField_setting (fun text => { before with method := some text }) (fun cs => ?_)
      (takesText_readText (isText ▸ spelled))
    rw [readSetting, if_pos rfl, unread]
  by_cases isWidth : one.name = "indent_width"
  · simp only [isWidth, String.reduceEq, if_true, if_false] at method indentWidth extensions ⊢
    obtain ⟨unread, n, word, indentWidth⟩ := indentWidth.of_cons
    refine ⟨{ before with indentWidth := some n }, ⟨values, method, indentWidth, extensions⟩, ?_⟩
    refine takesField_setting (fun n => { before with indentWidth := some n }) (fun cs => ?_)
      (takesText_readNatural word spelled)
    rw [readSetting, if_neg (by decide), if_pos rfl, unread]
  by_cases isExtensions : one.name = "extensions"
  · simp only [isExtensions, String.reduceEq, if_true, if_false] at method indentWidth extensions ⊢
    obtain ⟨unread, texts, areTexts, extensions⟩ := extensions.of_cons
    refine ⟨{ before with extensions := some texts }, ⟨values, method, indentWidth, extensions⟩, ?_⟩
    refine takesField_setting (fun texts => { before with extensions := some texts })
      (fun cs => ?_) (takesText_readTexts (areTexts ▸ spelled))
    rw [readSetting, if_neg (by decide), if_neg (by decide), if_pos rfl, unread]
  simp only [isMethod, isWidth, isExtensions, if_false] at method indentWidth extensions
  exact ⟨before, ⟨values, method, indentWidth, extensions⟩,
    takesField_other ⟨isMethod, isWidth, isExtensions⟩ spelled⟩

/-! ## Whole texts -/

/-- An object in which settings are given is read as those settings. -/
theorem readGiven_spelled {fields : List (String × Value)} {given : Given} {text : List Char}
    (spelled : Spells (.object fields) text) (gives : GivenBy fields given) :
    ∃ gap, (∀ c ∈ gap, isBlank c = true) ∧ readGiven text = .ok (given, gap) := by
  obtain ⟨front, core, back, blank, blank', ⟨inner, rfl, contents⟩, rfl⟩ := exists_bare spelled
  refine ⟨back, blank', ?_⟩
  simp only [List.cons_append, List.append_assoc, List.nil_append]
  rw [readGiven, skipBlanks_append blank, skipBlanks_cons (by decide)]
  show readFields .wanted readSetting _ {} _ = _
  rcases contents with ⟨rfl, gap⟩ | ⟨spellings, nonempty, rfl, names, values, rfl⟩
  · have start : Reading given [] {} := GivenBy.reading gives (List.forall_mem_nil _)
    rw [← start.eq_of_nil]
    exact readFields_empty gap _
  · obtain ⟨count, -⟩ := lengths_intercalate (spellings.map SpelledField.text)
    have enough : spellings.length ≤ (List.intercalate [','] (spellings.map SpelledField.text) ++
        '}' :: back).length + 1 := by
      rw [List.length_map] at count
      rw [List.length_append]
      omega
    obtain ⟨result, finished, read⟩ := readFields_texts (Reading given)
      (fun reading same => reading.step (same rfl)) (gives.reading values) nonempty names enough
    rw [← finished.eq_of_nil]
    exact read back

theorem ofJsonText_spelled {fields : List (String × Value)} {given : Given} {text : String}
    (spelled : Spells (.object fields) text.toList) (gives : GivenBy fields given) :
    ofJsonText text = .ok given.complete := by
  obtain ⟨gap, blank, read⟩ := readGiven_spelled spelled gives
  have nothing : skipBlanks gap = [] := by
    rw [← List.append_nil gap, skipBlanks_append blank]
    rfl
  rw [ofJsonText, read]
  simp only [readEnd, nothing, if_true, Except.map]

/-! ## Settings as an object -/

/-- All settings, as an object. -/
def toJson (config : Config) : Value :=
  .object [("method", .string config.method), ("indent_width", .natural config.indentWidth),
    ("extensions", .array (config.extensions.map .string))]

theorem isReadable_toJson {config : Config} (word : config.indentWidth < Numeral.wordLimit) :
    config.toJson.IsReadable := by
  refine .object ?_
  simp only [List.forall_mem_cons, List.not_mem_nil, false_implies, implies_true, and_true]
  refine ⟨.string _, .number (Numeral.isReadable_ofNat word), .array ?_⟩
  exact List.forall_mem_map.mpr fun text _ => .string text

/-- Settings that are all written are all given. -/
theorem givenBy_toJson {config : Config} (word : config.indentWidth < Numeral.wordLimit) :
    GivenBy [("method", .string config.method), ("indent_width", .natural config.indentWidth),
        ("extensions", .array (config.extensions.map .string))]
      ⟨some config.method, some config.indentWidth, some config.extensions⟩ where
  method := .cons rfl .nil
  indentWidth := .cons ⟨_, rfl, by simp, word⟩ .nil
  extensions := .cons rfl .nil

/-! ## Files -/

/-- Loading settings of which some are given.  The object may have any text, and besides the
settings, in any order, any other fields; then what is given is loaded, with the defaults for the
rest.  In particular settings that are written in full, in whatever layout, are loaded as they
were. -/
theorem load_partial (source : Source) (path : Path) :
    (∀ text fields given, source.read path = .ok text → Spells (.object fields) text.toList →
      GivenBy fields given → Config.load source path = .ok
        { method := given.method.getD "kss_block"
          indentWidth := given.indentWidth.getD 2
          extensions := given.extensions.getD ["slim"] }) ∧
      ∀ (config : Config) (layout : Layout), config.indentWidth < Numeral.wordLimit →
        source.read path = .ok (String.ofList (Value.written layout 0 config.toJson)) →
          Config.load source path = .ok config := by
  have loads {text : String} {fields : List (String × Value)} {given : Given}
      (found : source.read path = .ok text) (spelled : Spells (.object fields) text.toList)
      (gives : GivenBy fields given) : Config.load source path = .ok given.complete := by
    rw [Config.load, found]
    simp only [ofJsonText_spelled spelled gives]
  refine ⟨fun text fields given found spelled gives => loads found spelled gives, ?_⟩
  intro config layout word found
  have spelled := (isReadable_toJson word).spells_written layout 0
  rw [← String.toList_ofList (l := Value.written layout 0 config.toJson)] at spelled
  exact loads found spelled (givenBy_toJson word)

/-- An object with a field that is no setting, and with the method, whose name has its first
character escaped. -/
def methodOnly : List SpelledField :=
  [⟨"note", quoted "note", .array [.null], ['[', 'n', 'u', 'l', 'l', ']']⟩,
    ⟨"method", '"' :: ("\\u006dethod".toList ++ ['"']), .string "demo", quoted "demo"⟩]

/-- The source of one text. -/
def oneText (text : List Char) : Source := ⟨fun _ => .ok (String.ofList text), fun _ => []⟩

/-- The method alone, under an escaped name, and settings that are written on several lines. -/
theorem load_partial_method :
    Config.load (oneText ('{' :: (List.intercalate [','] (methodOnly.map SpelledField.text) ++
        ['}']))) ⟨"settings.json"⟩ = .ok ⟨"demo", 2, ["slim"]⟩ ∧
      Config.load (oneText (Value.written .indented 0
        (toJson ⟨"demo", Numeral.wordLimit - 1, []⟩))) ⟨"settings.json"⟩ =
          .ok ⟨"demo", Numeral.wordLimit - 1, []⟩ := by
  have first : SpellsChar 'm' ['\\', 'u', '0', '0', '6', 'd'] :=
    .numbered ⟨0, 0, 6, 13, rfl, rfl⟩
  have escaped : SpellsChars ('m' :: "ethod".toList) _ := .cons first (spellsChars_flatMap _)
  have names : ∀ field ∈ methodOnly, Spells (.string field.name) field.nameText := by
    simp only [methodOnly, List.forall_mem_cons]
    exact ⟨spells_quoted _, .string escaped, List.forall_mem_nil _⟩
  have values : ∀ field ∈ methodOnly, Spells field.value field.valueText := by
    simp only [methodOnly, List.forall_mem_cons]
    refine ⟨Value.IsReadable.spells_compact (.array ?_), spells_quoted _, List.forall_mem_nil _⟩
    exact List.forall_mem_singleton.mpr .null
  have spelled := Spells.object (by decide) names values
  have gives : GivenBy (methodOnly.map SpelledField.field) ⟨some "demo", none, none⟩ :=
    ⟨.cons rfl .nil, .nil, .nil⟩
  rw [← String.toList_ofList (l := '{' :: _)] at spelled
  exact ⟨(load_partial _ _).1 _ _ _ rfl spelled gives, (load_partial _ _).2 _ _ (by decide) rfl⟩

end Specimen.Config
