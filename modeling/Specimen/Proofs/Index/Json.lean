/-
# Specimen.Proofs.Index.Json — what the JSON text of an index says.

The text of an index is JSON, and a reader finds in it all that the index holds and nothing else:
the sections in their order, each with its strings and numbers as they are, and a field for the text
of a section exactly if that text has been loaded.  What a value shows is stated by looking its
fields up by name, without regard to how they are written.  A value shows one index at most, so
different indexes have different texts.

All this takes for granted that the paths of the sections are texts.  If one of them is not, the
index has no value, and its text is that of an empty object.
-/
import Specimen.Index
import Specimen.Proofs.Json.Spelling

namespace Specimen

open Json

/-! ## Looking into a value -/

namespace Json.Value

/-- The fields of an object. -/
def fields : Value → List (String × Value)
  | object fields => fields
  | _ => []

/-- The names of the fields of an object, in order. -/
def names (value : Value) : List String := value.fields.map Prod.fst

/-- The value of the first field with this name. -/
def field? (value : Value) (name : String) : Option Value := value.fields.lookup name

/-- The natural number of 64 bits that is written, if it is one. -/
def natural? : Value → Option Nat
  | number numeral => numeral.natural?
  | _ => none

theorem natural?_natural {n : Nat} (fits : n < Numeral.wordLimit) :
    (natural n).natural? = some n :=
  Numeral.natural?_ofNat fits

theorem isReadable_natural {n : Nat} (fits : n < Numeral.wordLimit) : (natural n).IsReadable :=
  .number (Numeral.isReadable_ofNat fits)

end Json.Value

/-! ## Spans -/

/-- The numbers of a span have 64 bits. -/
structure Span.Fits (span : Span) : Prop where
  startLine : span.startLine < Numeral.wordLimit
  lineCount : span.lineCount < Numeral.wordLimit

/-- A value shows a span. -/
structure Span.ShownBy (span : Span) (value : Value) : Prop where
  names : value.names = ["start_line", "line_count"]
  startLine : (value.field? "start_line").bind Value.natural? = some span.startLine
  lineCount : (value.field? "line_count").bind Value.natural? = some span.lineCount

namespace Span

variable {span span' : Span} {value : Value}

theorem shownBy_toJson (fits : span.Fits) : span.ShownBy span.toJson where
  names := rfl
  startLine := Value.natural?_natural fits.startLine
  lineCount := Value.natural?_natural fits.lineCount

theorem ShownBy.unique (one : span.ShownBy value) (other : span'.ShownBy value) :
    span = span' := by
  have startLine := one.startLine.symm.trans other.startLine
  have lineCount := one.lineCount.symm.trans other.lineCount
  cases span
  cases span'
  cases startLine
  cases lineCount
  rfl

theorem isReadable_toJson (fits : span.Fits) : span.toJson.IsReadable := by
  refine .object ?_
  simp [Value.isReadable_natural, fits.startLine, fits.lineCount]

theorem nesting_toJson (span : Span) : span.toJson.nesting = 1 := rfl

end Span

/-! ## Sections -/

/-- The path of a section is a text, and its numbers have 64 bits. -/
structure Section.Fits (item : Section) : Prop where
  file : ∃ text : String, item.file = ⟨text⟩
  callLine : item.callLine < Numeral.wordLimit
  span : item.span.Fits

/-- A value shows a section. -/
structure Section.ShownBy (item : Section) (value : Value) : Prop where
  /-- The last field is there exactly if the text has been loaded. -/
  names : value.names = ["argument", "file", "call_line", "span"] ++
    if item.source.isSome then ["source"] else []
  argument : value.field? "argument" = some (.string item.argument)
  file : ∃ text : String, value.field? "file" = some (.string text) ∧ item.file = ⟨text⟩
  callLine : (value.field? "call_line").bind Value.natural? = some item.callLine
  span : ∃ shown, value.field? "span" = some shown ∧ item.span.ShownBy shown
  source : value.field? "source" = item.source.map .string

namespace Section

variable {item item' : Section} {value : Value}

theorem toJson?_eq_some_iff :
    item.toJson? = some value ↔ ∃ file : String, item.file = ⟨file⟩ ∧ item.toJson file = value := by
  rw [toJson?, Option.map_eq_some_iff]
  constructor
  · rintro ⟨file, named, same⟩
    exact ⟨file, congrArg Path.mk (Text.text?_eq_some_iff.mp named).symm, same⟩
  · rintro ⟨file, named, same⟩
    exact ⟨file, by rw [named, Text.text?_bytes], same⟩

theorem isSome_toJson?_iff :
    item.toJson?.isSome = true ↔ ∃ file : String, item.file = ⟨file⟩ := by
  simp only [Option.isSome_iff_exists, toJson?_eq_some_iff]
  constructor
  · rintro ⟨value, file, named, -⟩
    exact ⟨file, named⟩
  · rintro ⟨file, named⟩
    exact ⟨_, file, named, rfl⟩

theorem shownBy_of_toJson? (fits : item.Fits) (given : item.toJson? = some value) :
    item.ShownBy value := by
  obtain ⟨file, named, rfl⟩ := toJson?_eq_some_iff.mp given
  exact {
    names := by
      rw [toJson]
      cases item.source <;> rfl
    argument := rfl
    file := ⟨file, rfl, named⟩
    callLine := Value.natural?_natural fits.callLine
    span := ⟨item.span.toJson, rfl, Span.shownBy_toJson fits.span⟩
    source := by
      rw [toJson]
      cases item.source <;> rfl }

theorem ShownBy.unique (one : item.ShownBy value) (other : item'.ShownBy value) :
    item = item' := by
  have argument := one.argument.symm.trans other.argument
  have file : item.file = item'.file := by
    obtain ⟨text, found, named⟩ := one.file
    obtain ⟨text', found', named'⟩ := other.file
    obtain rfl : text = text' := Value.string.inj (Option.some.inj (found.symm.trans found'))
    exact named.trans named'.symm
  have callLine := one.callLine.symm.trans other.callLine
  have span : item.span = item'.span := by
    obtain ⟨shown, found, shows⟩ := one.span
    obtain ⟨shown', found', shows'⟩ := other.span
    obtain rfl : shown = shown' := Option.some.inj (found.symm.trans found')
    exact shows.unique shows'
  have source : item.source = item'.source :=
    Option.map_injective (fun _ _ => Value.string.inj) (one.source.symm.trans other.source)
  cases item
  cases argument
  cases file
  cases callLine
  cases span
  cases source
  rfl

theorem isReadable_of_toJson? (fits : item.Fits) (given : item.toJson? = some value) :
    value.IsReadable := by
  obtain ⟨file, -, rfl⟩ := toJson?_eq_some_iff.mp given
  refine .object ?_
  rw [List.forall_mem_append]
  refine ⟨?_, ?_⟩
  · simp [Value.IsReadable.string, Value.isReadable_natural fits.callLine,
      Span.isReadable_toJson fits.span]
  · cases item.source <;> simp [Value.IsReadable.string]

theorem nesting_le_of_toJson? (given : item.toJson? = some value) : value.nesting ≤ 2 := by
  obtain ⟨file, -, rfl⟩ := toJson?_eq_some_iff.mp given
  rw [toJson, Value.nesting, Nat.add_le_add_iff_right, Value.fieldNesting_le_iff]
  cases item.source <;> simp [Value.nesting, Value.natural, Span.nesting_toJson]

end Section

/-! ## Indexes -/

/-- The paths in an index are texts, and its numbers have 64 bits. -/
structure Index.Fits (index : Index) : Prop where
  sections : ∀ item ∈ index.sections, item.Fits
  skipped : index.skipped < Numeral.wordLimit

/-- A value shows an index. -/
structure Index.ShownBy (index : Index) (value : Value) : Prop where
  names : value.names = ["sections", "skipped"]
  /-- The elements of an array show the sections, one after the other. -/
  sections : ∃ shown, value.field? "sections" = some (.array shown) ∧
    List.Forall₂ Section.ShownBy index.sections shown
  skipped : (value.field? "skipped").bind Value.natural? = some index.skipped

namespace Index

variable {index index' : Index} {value : Value}

/-- What stands on the right of a pairwise relation has something on the left. -/
theorem exists_of_mem_right {α β : Type} {R : α → β → Prop} {as : List α} {bs : List β}
    (pairs : List.Forall₂ R as bs) {b : β} (member : b ∈ bs) : ∃ a ∈ as, R a b := by
  induction pairs with
  | nil => cases member
  | @cons a c _ _ first _ ih =>
      rcases List.mem_cons.mp member with rfl | member
      · exact ⟨a, List.mem_cons_self, first⟩
      · obtain ⟨a, inside, related⟩ := ih member
        exact ⟨a, List.mem_cons_of_mem _ inside, related⟩

theorem mapM_toJson?_eq_some_iff {items : List Section} {values : List Value} :
    items.mapM Section.toJson? = some values ↔
      List.Forall₂ (fun item value => item.toJson? = some value) items values := by
  induction items generalizing values with
  | nil => simp [eq_comm]
  | cons item items ih =>
      rw [List.mapM_cons, List.forall₂_cons_left_iff]
      simp only [Option.bind_eq_bind, Option.bind_eq_some_iff, Option.pure_def, Option.some_inj, ih]
      grind

theorem isSome_mapM_toJson?_iff {items : List Section} :
    (items.mapM Section.toJson?).isSome = true ↔ ∀ item ∈ items, item.toJson?.isSome = true := by
  induction items with
  | nil => simp
  | cons item items ih =>
      rw [List.forall_mem_cons, ← ih, List.mapM_cons]
      cases item.toJson? <;> cases items.mapM Section.toJson? <;> simp

/-- The value of an index holds a value for each of its sections. -/
theorem toJson?_eq_some_iff :
    index.toJson? = some value ↔ ∃ values,
      List.Forall₂ (fun item value => item.toJson? = some value) index.sections values ∧
        index.toJson values = value := by
  rw [toJson?, Option.map_eq_some_iff]
  simp only [mapM_toJson?_eq_some_iff]

/-- An index has a value exactly if the paths of all its sections are texts. -/
theorem isSome_toJson?_iff :
    index.toJson?.isSome = true ↔ ∀ item ∈ index.sections, ∃ text : String, item.file = ⟨text⟩ := by
  rw [toJson?, Option.isSome_map, isSome_mapM_toJson?_iff]
  simp only [Section.isSome_toJson?_iff]

/-- If all paths are texts, the text of an index is its value, written out. -/
theorem exists_toJsonText_eq
    (named : ∀ item ∈ index.sections, ∃ text : String, item.file = ⟨text⟩) :
    ∃ value, index.toJson? = some value ∧
      index.toJsonText = String.ofList (value.indented 0) := by
  obtain ⟨value, given⟩ := Option.isSome_iff_exists.mp (isSome_toJson?_iff.mpr named)
  exact ⟨value, given, by rw [toJsonText, given]⟩

/-- If one is not, nothing of the index is in its text. -/
theorem toJsonText_of_unnamed
    (unnamed : ∃ item ∈ index.sections, ∀ text : String, item.file ≠ ⟨text⟩) :
    index.toJsonText = "\x7b\x7d" := by
  have absent : index.toJson? = none := by
    rw [← Option.not_isSome_iff_eq_none, isSome_toJson?_iff]
    rintro named
    obtain ⟨item, member, differs⟩ := unnamed
    obtain ⟨text, same⟩ := named item member
    exact differs text same
  rw [toJsonText, absent]

/-- What the value of an index shows is the index. -/
theorem shownBy_of_toJson? (fits : index.Fits) (given : index.toJson? = some value) :
    index.ShownBy value := by
  obtain ⟨values, each, rfl⟩ := toJson?_eq_some_iff.mp given
  refine ⟨rfl, ⟨values, rfl, ?_⟩, Value.natural?_natural fits.skipped⟩
  refine ((List.forall₂_and_left _ _).mpr ⟨fits.sections, each⟩).imp ?_
  rintro item value ⟨fits, given⟩
  exact Section.shownBy_of_toJson? fits given

/-- A value shows one index at most. -/
theorem ShownBy.unique (one : index.ShownBy value) (other : index'.ShownBy value) :
    index = index' := by
  have skipped := one.skipped.symm.trans other.skipped
  have sections : index.sections = index'.sections := by
    obtain ⟨shown, found, shows⟩ := one.sections
    obtain ⟨shown', found', shows'⟩ := other.sections
    obtain rfl : shown = shown' := Value.array.inj (Option.some.inj (found.symm.trans found'))
    have unique : Relator.LeftUnique Section.ShownBy := fun _ _ _ one other => one.unique other
    exact unique.forall₂ shows shows'
  cases index
  cases index'
  cases skipped
  cases sections
  rfl

theorem isReadable_of_toJson? (fits : index.Fits) (given : index.toJson? = some value) :
    value.IsReadable := by
  obtain ⟨values, each, rfl⟩ := toJson?_eq_some_iff.mp given
  have sections : ∀ value ∈ values, value.IsReadable := by
    intro value member
    obtain ⟨item, inside, given⟩ := exists_of_mem_right each member
    exact Section.isReadable_of_toJson? (fits.sections item inside) given
  refine .object ?_
  simp only [List.forall_mem_cons]
  exact ⟨.array sections, Value.isReadable_natural fits.skipped, List.forall_mem_nil _⟩

/-- Nothing in an index is nested deeper than its spans. -/
theorem nesting_le_of_toJson? (given : index.toJson? = some value) : value.nesting ≤ 4 := by
  obtain ⟨values, each, rfl⟩ := toJson?_eq_some_iff.mp given
  have sections : Value.nestingIn values ≤ 2 := by
    refine Value.nestingIn_le_iff.mpr fun value member => ?_
    obtain ⟨item, -, given⟩ := exists_of_mem_right each member
    exact Section.nesting_le_of_toJson? given
  rw [toJson, Value.nesting, Nat.add_le_add_iff_right, Value.fieldNesting_le_iff]
  simp only [List.forall_mem_cons, Value.nesting, Value.natural]
  exact ⟨Nat.add_le_add_right sections 1, Nat.zero_le _, List.forall_mem_nil _⟩

/-- The text of an index that fits is a value, written out, and is read back as that value. -/
theorem exists_value (fits : index.Fits) :
    ∃ value, index.toJson? = some value ∧ Spells value index.toJsonText.toList ∧
      Value.read index.toJsonText = .ok value := by
  obtain ⟨value, given, text⟩ :=
    exists_toJsonText_eq fun item member => (fits.sections item member).file
  have readable := isReadable_of_toJson? fits given
  refine ⟨value, given, ?_, ?_⟩
  · rw [text, String.toList_ofList]
    exact readable.spells_indented
  · rw [text]
    refine (Value.read_indented_iff readable).mpr ?_
    exact Nat.le_trans (nesting_le_of_toJson? given) (by decide)

theorem toJsonText_injective (fits : index.Fits) (fits' : index'.Fits)
    (same : index.toJsonText = index'.toJsonText) : index = index' := by
  obtain ⟨value, given, -, read⟩ := exists_value fits
  obtain ⟨value', given', -, read'⟩ := exists_value fits'
  rw [same, read', Except.ok.injEq] at read
  exact (shownBy_of_toJson? fits given).unique (read ▸ shownBy_of_toJson? fits' given')

/-- The text of an index is JSON and is read as a value that shows the index, whatever its strings
are and however large its numbers.  No other index has that text. -/
theorem toJsonText_faithful (fits : index.Fits) :
    (∃ value, Spells value index.toJsonText.toList ∧
      Value.read index.toJsonText = .ok value ∧ index.ShownBy value) ∧
    ∀ other : Index, other.Fits → other ≠ index → other.toJsonText ≠ index.toJsonText := by
  obtain ⟨value, given, spells, read⟩ := exists_value fits
  refine ⟨⟨value, spells, read, shownBy_of_toJson? fits given⟩, ?_⟩
  exact fun other fits' differs same => differs (toJsonText_injective fits' fits same)

example : ({ skipped := 3 } : Index).toJsonText =
    "\x7b\n  \"sections\": [],\n  \"skipped\": 3\n\x7d" := by
  decide +kernel

/-- One section with a text and one without; strings that need escapes, and the greatest numbers. -/
def escaped : Index where
  sections := [
    ⟨"a \"b\" \\ \n\x01é😀", ⟨"dir\\\n\"x\".slim"⟩, 18446744073709551615,
      ⟨18446744073709551615, 18446744073709551615⟩, some "p\r\n\t\"\\\x00"⟩,
    ⟨"", ⟨""⟩, 0, ⟨0, 0⟩, none⟩]
  skipped := 18446744073709551615

/-- The numbers of this index fit, and it has its text to itself. -/
theorem toJsonText_faithful_escaped :
    escaped.Fits ∧
    (∃ value, Spells value escaped.toJsonText.toList ∧
      Value.read escaped.toJsonText = .ok value ∧ escaped.ShownBy value) ∧
    ∀ other : Index, other.Fits → other ≠ escaped → other.toJsonText ≠ escaped.toJsonText := by
  have fits : escaped.Fits := by
    refine ⟨?_, by decide⟩
    simp only [escaped, List.forall_mem_cons]
    exact ⟨⟨⟨_, rfl⟩, by decide, by decide, by decide⟩, ⟨⟨_, rfl⟩, by decide, by decide, by decide⟩,
      List.forall_mem_nil _⟩
  exact ⟨fits, toJsonText_faithful fits⟩

end Index

end Specimen
