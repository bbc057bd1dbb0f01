/-
# Specimen.Proofs.Template.Classification — what a line is, and what it swallows.

The first characters of a line decide what the line is.  `Classifies` is the list of the cases, each
with the text that it keeps and with what has to hold for no earlier case to apply; it mentions no
trim and no order in which cases are tried.  Which lines open an embedded engine is left to a
relation, because here the documents and the reading differ: a name with a colon directly behind it
is what the documents allow (`NamesBare`), and the reading lets white space stand between the two as
well (`NamesLoose`).

`ofContent_classifies` says that a line is read as the second of these classifications has it, that
this is the documented one except for the lines with white space before the colon, and which lines
take everything deeper below them as it is.  `engine_before_spaced_colon` is a line on which the
documents and the reading differ.
-/
import Specimen.Proofs.Template.Writing

namespace Specimen.Template

open Text Unicode

/-! ## Texts behind an indicator -/

/-- What is behind the indicator of a call: code with white space around it, or nothing else than
white space. -/
inductive GivesCode (kind : CallKind) : List Char → Except CallKind Head → Prop
  | missing {rest : List Char} : (∀ c ∈ rest, isWhiteSpace c = true) →
      GivesCode kind rest (.error kind)
  | code {front code back : List Char} : (∀ c ∈ front, isWhiteSpace c = true) →
      (∀ c ∈ back, isWhiteSpace c = true) → code ≠ [] → StartsPlain code → EndsPlain code →
      GivesCode kind (front ++ code ++ back) (.ok (.call kind (String.ofList code)))

/-- The text is what follows, less one blank in front if there is one. -/
def DropsBlank (rest text : List Char) : Prop :=
  rest = ' ' :: text ∨ rest = text ∧ rest.head? ≠ some ' '

theorem ofCode_eq_iff {kind : CallKind} {rest : List Char} {result : Except CallKind Head} :
    Head.ofCode kind rest = result ↔ GivesCode kind rest result := by
  constructor
  · rintro rfl
    unfold Head.ofCode
    split
    · next missing => exact .missing (trim_eq_nil_iff.mp missing)
    · next code =>
      obtain ⟨front, before, whiteFront⟩ := exists_white_trimStart rest
      obtain ⟨back, behind, whiteBack⟩ := exists_white_trimEnd (trimStart rest)
      have split : rest = front ++ trim rest ++ back := by
        rw [List.append_assoc, trim, ← behind, ← before]
      have gives : GivesCode kind (front ++ trim rest ++ back) _ :=
        .code whiteFront whiteBack code (startsPlain_trim rest) (endsPlain_trim rest)
      rwa [← split] at gives
  · intro gives
    cases gives with
    | missing white => rw [Head.ofCode, if_pos (trim_eq_nil_iff.mpr white)]
    | code whiteFront whiteBack nonempty starts ends =>
        rw [Head.ofCode, trim_append_white whiteBack, trim_append whiteFront starts ends,
          if_neg nonempty]

theorem withoutBlank_eq_iff {rest text : List Char} :
    withoutBlank rest = text ↔ DropsBlank rest text := by
  unfold withoutBlank DropsBlank
  split
  · next rest => simp [eq_comm]
  · next other =>
    have plain : rest.head? ≠ some ' ' := by
      intro blank
      obtain ⟨behind, shape⟩ := List.head?_eq_some_iff.mp blank
      exact other behind shape
    have unlike : rest ≠ ' ' :: text := fun shape => other text shape
    simp [unlike, plain]

/-! ## The cases -/

/-- The content is a name of letters, numbers and low lines with a colon directly behind it. -/
def NamesBare (content name : List Char) : Prop :=
  name ≠ [] ∧ (∀ c ∈ name, isNameChar c = true) ∧ content = name ++ [':']

/-- The content is such a name and a colon, with white space between the two, if any. -/
def NamesLoose (content name : List Char) : Prop :=
  name ≠ [] ∧ (∀ c ∈ name, isNameChar c = true) ∧
    ∃ space, content = name ++ space ++ [':'] ∧ ∀ c ∈ space, isWhiteSpace c = true

/-- The head that a line with this content gives to a block, or the kind of call whose code is
missing, if the relation tells which contents open an embedded engine, and of what name. -/
inductive Classifies (engine : List Char → List Char → Prop) :
    List Char → Except CallKind Head → Prop
  | unescaped {rest : List Char} {result : Except CallKind Head} :
      GivesCode .unescapedOutput rest result → Classifies engine ('=' :: '=' :: rest) result
  | output {rest : List Char} {result : Except CallKind Head} :
      rest.head? ≠ some '=' → GivesCode .output rest result → Classifies engine ('=' :: rest) result
  | control {rest : List Char} {result : Except CallKind Head} :
      GivesCode .control rest result → Classifies engine ('-' :: rest) result
  | text {mark : Char} {rest text : List Char} :
      mark = '|' ∨ mark = '\'' → DropsBlank rest text →
      Classifies engine (mark :: rest) (.ok (.markup .text (String.ofList text)))
  | comment {space text : List Char} :
      (∀ c ∈ space, isWhiteSpace c = true) → StartsPlain text →
      Classifies engine ('/' :: (space ++ text)) (.ok (.markup .comment (String.ofList text)))
  | html {rest : List Char} :
      Classifies engine ('<' :: rest) (.ok (.markup .html (String.ofList ('<' :: rest))))
  | embedded {content name : List Char} :
      (∀ c ∈ content.head?, c ∉ indicators) → engine content name →
      Classifies engine content (.ok (.markup .embedded (String.ofList name)))
  | tag {content : List Char} :
      (∀ c ∈ content.head?, c ∉ indicators) → (∀ name, ¬ engine content name) →
      Classifies engine content (.ok (.markup .tag (String.ofList content)))

/-- Only what the relation says of this content matters. -/
theorem Classifies.of_agrees {engine engine' : List Char → List Char → Prop} {content : List Char}
    {result : Except CallKind Head} (agrees : ∀ name, engine content name ↔ engine' content name)
    (h : Classifies engine content result) : Classifies engine' content result := by
  cases h with
  | unescaped code => exact .unescaped code
  | output once code => exact .output once code
  | control code => exact .control code
  | text mark drops => exact .text mark drops
  | comment white starts => exact .comment white starts
  | html => exact .html
  | embedded plain names => exact .embedded plain ((agrees _).mp names)
  | tag plain nameless => exact .tag plain fun name names => nameless name ((agrees name).mpr names)

/-- An engine is opened only by what the relation says. -/
theorem Classifies.exists_name {engine : List Char → List Char → Prop} {content : List Char}
    {text : String} (h : Classifies engine content (.ok (.markup .embedded text))) :
    ∃ name, engine content name := by
  generalize same : Except.ok (Head.markup .embedded text) = result at h
  cases h with
  | embedded _ names => exact ⟨_, names⟩
  | unescaped code | output _ code | control code => cases code <;> simp at same
  | text | comment | html | tag => simp at same

/-! ## The reading of a line -/

theorem ofContent_output {rest : List Char} (once : rest.head? ≠ some '=') :
    Head.ofContent ('=' :: rest) = Head.ofCode .output rest := by
  rw [Head.ofContent]
  rintro behind rfl
  exact once rfl

/-- Every line is read as one of the cases has it. -/
theorem classifies_ofContent (content : List Char) :
    Classifies NamesLoose content (Head.ofContent content) := by
  by_cases plain : ∀ c ∈ content.head?, c ∉ indicators
  · rw [ofContent_of_plain plain]
    split
    · next name found => exact .embedded plain (engineName?_eq_some_iff.mp found)
    · next none =>
      refine .tag plain fun name names => ?_
      rw [engineName?_eq_some_iff.mpr names] at none
      contradiction
  · push Not at plain
    obtain ⟨first, isFirst, isIndicator⟩ := plain
    obtain ⟨rest, rfl⟩ := List.head?_eq_some_iff.mp isFirst
    simp only [indicators, List.mem_cons, List.not_mem_nil, or_false] at isIndicator
    rcases isIndicator with rfl | rfl | rfl | rfl | rfl | rfl
    · by_cases twice : rest.head? = some '='
      · obtain ⟨rest, rfl⟩ := List.head?_eq_some_iff.mp twice
        exact .unescaped (ofCode_eq_iff.mp rfl)
      · rw [ofContent_output twice]
        exact .output twice (ofCode_eq_iff.mp rfl)
    · exact .control (ofCode_eq_iff.mp rfl)
    · exact .text (.inl rfl) (withoutBlank_eq_iff.mp rfl)
    · exact .text (.inr rfl) (withoutBlank_eq_iff.mp rfl)
    · obtain ⟨space, split, white⟩ := exists_white_trimStart rest
      have comment : Classifies NamesLoose ('/' :: (space ++ trimStart rest)) _ :=
        .comment white (startsPlain_trimStart rest)
      rwa [← split] at comment
    · exact .html

/-- No line is read otherwise. -/
theorem ofContent_of_classifies {content : List Char} {result : Except CallKind Head}
    (h : Classifies NamesLoose content result) : Head.ofContent content = result := by
  cases h with
  | unescaped code => exact ofCode_eq_iff.mpr code
  | output once code => exact (ofContent_output once).trans (ofCode_eq_iff.mpr code)
  | control code => exact ofCode_eq_iff.mpr code
  | text mark drops =>
      obtain rfl := withoutBlank_eq_iff.mpr drops
      rcases mark with rfl | rfl <;> rfl
  | comment white starts => rw [Head.ofContent, trimStart_append white, trimStart_eq_self starts]
  | html => rfl
  | embedded plain names => rw [ofContent_of_plain plain, engineName?_eq_some_iff.mpr names]
  | tag plain nameless =>
      have none : engineName? content = none :=
        Option.eq_none_iff_forall_ne_some.mpr fun name found =>
          nameless name (engineName?_eq_some_iff.mp found)
      rw [ofContent_of_plain plain, none]

theorem ofContent_eq_iff {content : List Char} {result : Except CallKind Head} :
    Head.ofContent content = result ↔ Classifies NamesLoose content result :=
  ⟨fun same => same ▸ classifies_ofContent content, ofContent_of_classifies⟩

/-! ## White space before the colon -/

/-- The content is a name and a colon with white space between the two. -/
def SpacesColon (content : List Char) : Prop :=
  ∃ name space, name ≠ [] ∧ (∀ c ∈ name, isNameChar c = true) ∧ space ≠ [] ∧
    (∀ c ∈ space, isWhiteSpace c = true) ∧ content = name ++ space ++ [':']

theorem NamesBare.loose {content name : List Char} (h : NamesBare content name) :
    NamesLoose content name := by
  obtain ⟨nonempty, named, rfl⟩ := h
  exact ⟨nonempty, named, [], by rw [List.append_nil], nofun⟩

theorem NamesLoose.bare {content name : List Char} (h : NamesLoose content name)
    (spaceless : ¬ SpacesColon content) : NamesBare content name := by
  obtain ⟨nonempty, named, space, rfl, white⟩ := h
  by_cases empty : space = []
  · rw [empty, List.append_nil]
    exact ⟨nonempty, named, rfl⟩
  · exact absurd ⟨name, space, nonempty, named, empty, white, rfl⟩ spaceless

/-- White space is no part of a name, so such a content is not one with the colon directly behind
its name. -/
theorem SpacesColon.not_namesBare {content : List Char} (h : SpacesColon content)
    (name : List Char) : ¬ NamesBare content name := by
  rintro ⟨-, named', same⟩
  obtain ⟨name', space, -, -, nonempty, white, rfl⟩ := h
  obtain rfl := List.append_cancel_right same
  obtain ⟨c, rest, rfl⟩ := List.exists_cons_of_ne_nil nonempty
  have inName : c ∈ name' ++ c :: rest := List.mem_append_right _ List.mem_cons_self
  have isWhite := white c List.mem_cons_self
  simp [not_white_of_isNameChar (named' c inName)] at isWhite

theorem NamesLoose.plain {content name : List Char} (h : NamesLoose content name) :
    ∀ c ∈ content.head?, c ∉ indicators := by
  obtain ⟨nonempty, named, space, rfl, -⟩ := h
  rw [List.append_assoc, List.head?_append_of_ne_nil _ nonempty]
  exact fun c first => not_indicator_of_isNameChar (named c (List.mem_of_head? first))

/-- The documented classification is met by every line but those. -/
theorem documented_iff {content : List Char} :
    (∀ result, Head.ofContent content = result ↔ Classifies NamesBare content result) ↔
      ¬ SpacesColon content := by
  constructor
  · intro documented spaced
    obtain ⟨name, space, nonempty, named, -, white, shape⟩ := id spaced
    have names : NamesLoose content name := ⟨nonempty, named, space, shape, white⟩
    have bare := (documented _).mp (ofContent_eq_iff.mpr (.embedded names.plain names))
    obtain ⟨name', names'⟩ := bare.exists_name
    exact spaced.not_namesBare name' names'
  · intro spaceless result
    have agrees (name : List Char) : NamesLoose content name ↔ NamesBare content name :=
      ⟨fun names => names.bare spaceless, NamesBare.loose⟩
    rw [ofContent_eq_iff]
    exact ⟨.of_agrees agrees, .of_agrees fun name => (agrees name).symm⟩

/-! ## Lines that swallow deeper lines -/

/-- The content of a text, of a comment or of an embedded engine. -/
def OpensVerbatim (engine : List Char → List Char → Prop) (content : List Char) : Prop :=
  (∃ mark, mark ∈ ['|', '\'', '/'] ∧ content.head? = some mark) ∨ ∃ name, engine content name

/-- Wherever there is room for a line with this content, its block takes all deeper or blank lines
that come below as they are, and nothing in them is at fault. -/
def SwallowsDeeper (content : List Char) : Prop :=
  ∃ head, Head.ofContent content = .ok head ∧
    ∀ (outline room : Outline) (indent number : Nat) (body : List Line),
      outline.keeps indent = false → outline.enter indent = some room → Deeper indent body →
      outline.addLines number (⟨indent, content⟩ :: body) =
        .ok ⟨room.top, OpenBlock.extend ⟨indent, head, #[.lineBreak]⟩ (body.map Line.keptNode) ::
          room.blocks⟩

/-- A verbatim block takes the deeper lines as they are. -/
theorem addLines_of_verbatim (block : OpenBlock) (verbatim : block.head.isVerbatim = true)
    {body : List Line} (deeper : Deeper block.indent body) (top : Array Node)
    (outer : List OpenBlock) (number : Nat) :
    Outline.addLines ⟨top, block :: outer⟩ number body =
      .ok ⟨top, block.extend (body.map Line.keptNode) :: outer⟩ := by
  induction body generalizing block number with
  | nil => rw [Outline.addLines, List.map_nil, OpenBlock.extend_nil]
  | cons line body ih =>
      have taken : Takes ⟨top, block :: outer⟩ line
          (Outline.attach ⟨top, block :: outer⟩ line.keptNode) := by
        cases blank : line.isBlank with
        | true => exact .blank blank
        | false =>
            exact .kept blank (keeps_cons.mpr ⟨verbatim, deeper line List.mem_cons_self blank⟩)
      have others : Deeper (block.attach line.keptNode).indent body :=
        deeper.of_subset (List.subset_cons_self _ _)
      rw [Outline.addLines, addLine_eq_ok_iff.mpr taken, attach_cons, List.map_cons,
        ← OpenBlock.extend_attach]
      exact ih (block.attach line.keptNode) verbatim others (number + 1)

theorem not_opensVerbatim {first : Char} (other : first ∈ ['=', '-', '<']) (rest : List Char) :
    ¬ OpensVerbatim NamesLoose (first :: rest) := by
  have apart : first ∈ indicators ∧ first ∉ ['|', '\'', '/'] := by
    simp only [List.mem_cons, List.not_mem_nil, or_false] at other
    rcases other with rfl | rfl | rfl <;> decide
  rintro (⟨mark, marks, ⟨⟩⟩ | ⟨name, names⟩)
  · exact apart.2 marks
  · exact names.plain first rfl apart.1

theorem isVerbatim_iff_opensVerbatim {content : List Char} {head : Head}
    (read : Head.ofContent content = .ok head) :
    head.isVerbatim = true ↔ OpensVerbatim NamesLoose content := by
  have classified := ofContent_eq_iff.mp read
  generalize same : Except.ok head = result at classified
  cases classified with
  | unescaped code | output _ code | control code =>
      cases code with
      | missing => contradiction
      | code =>
          obtain rfl := Except.ok.inj same
          exact iff_of_false Bool.false_ne_true (not_opensVerbatim (by decide) _)
  | html =>
      obtain rfl := Except.ok.inj same
      exact iff_of_false Bool.false_ne_true (not_opensVerbatim (by decide) _)
  | text mark =>
      obtain rfl := Except.ok.inj same
      rcases mark with rfl | rfl
      · exact iff_of_true rfl (.inl ⟨'|', by decide, rfl⟩)
      · exact iff_of_true rfl (.inl ⟨'\'', by decide, rfl⟩)
  | comment =>
      obtain rfl := Except.ok.inj same
      exact iff_of_true rfl (.inl ⟨'/', by decide, rfl⟩)
  | @embedded _ name _ names =>
      obtain rfl := Except.ok.inj same
      exact iff_of_true rfl (.inr ⟨name, names⟩)
  | tag plain unnamed =>
      obtain rfl := Except.ok.inj same
      have areIndicators : ['|', '\'', '/'] ⊆ indicators := by decide
      refine iff_of_false Bool.false_ne_true ?_
      rintro (⟨mark, marks, first⟩ | ⟨name, names⟩)
      · exact plain mark first (areIndicators marks)
      · exact unnamed name names

/-- A block that is not verbatim takes a deeper line for what it is, and one with an indicator and
no code is at fault. -/
theorem addLines_of_interpreted {head : Head} (interpreted : head.isVerbatim = false)
    (room : Outline) (indent number : Nat) :
    (room.openBlock indent head).addLines number [⟨indent + 1, ['-']⟩] =
      .error (.missingCode number .control) := by
  have leaves : (room.openBlock indent head).keeps (indent + 1) = false := by
    simp [Outline.keeps, Outline.openBlock, interpreted]
  have enters : (room.openBlock indent head).enter (indent + 1) =
      some (room.openBlock indent head) := if_pos (Nat.lt_succ_self indent)
  rw [Outline.addLines, Outline.addLine, leaves, enters]
  rfl

theorem OpensVerbatim.exists_head {content : List Char} (h : OpensVerbatim NamesLoose content) :
    content ≠ [] ∧ ∃ head, Head.ofContent content = .ok head := by
  rcases h with ⟨mark, marks, first⟩ | ⟨name, names⟩
  · obtain ⟨rest, rfl⟩ := List.head?_eq_some_iff.mp first
    refine ⟨List.cons_ne_nil _ _, ?_⟩
    simp only [List.mem_cons, List.not_mem_nil, or_false] at marks
    rcases marks with rfl | rfl | rfl <;> exact ⟨_, rfl⟩
  · refine ⟨?_, _, ofContent_eq_iff.mpr (.embedded names.plain names)⟩
    obtain ⟨-, -, space, rfl, -⟩ := names
    exact List.append_ne_nil_of_right_ne_nil _ (List.cons_ne_nil _ _)

/-- The lines of those forms, and no others, swallow what is deeper. -/
theorem swallowsDeeper_iff {content : List Char} :
    SwallowsDeeper content ↔ OpensVerbatim NamesLoose content := by
  constructor
  · rintro ⟨head, read, swallows⟩
    rw [← isVerbatim_iff_opensVerbatim read]
    by_contra interpreted
    rw [Bool.not_eq_true] at interpreted
    -- a line with an indicator and no code would be kept below it, and is at fault
    have kept := swallows .empty .empty 0 1 [⟨1, ['-']⟩] rfl rfl (by simp [Deeper])
    by_cases blank : content = []
    · rw [blank] at kept
      contradiction
    · have nonblank : Line.isBlank ⟨0, content⟩ = false := by simpa [Line.isBlank] using blank
      have opened : Takes .empty ⟨0, content⟩ _ := .opened nonblank rfl .first read
      rw [Outline.addLines, addLine_eq_ok_iff.mpr opened] at kept
      simp [addLines_of_interpreted interpreted] at kept
  · intro opens
    obtain ⟨nonempty, head, read⟩ := opens.exists_head
    refine ⟨head, read, fun outline room indent number body leaves enters deeper => ?_⟩
    have verbatim : head.isVerbatim = true := (isVerbatim_iff_opensVerbatim read).mpr opens
    have nonblank : Line.isBlank ⟨indent, content⟩ = false := by
      simpa [Line.isBlank] using nonempty
    have opened : Takes outline ⟨indent, content⟩ _ :=
      .opened nonblank leaves (enter_eq_some_iff.mp enters) read
    rw [Outline.addLines, addLine_eq_ok_iff.mpr opened]
    exact addLines_of_verbatim ⟨indent, head, #[.lineBreak]⟩ verbatim deeper room.top room.blocks
      (number + 1)

/-! ## The classification -/

/-- What a line is.  It is read by the cases above, where white space may stand before the colon of
an embedded engine; this is the documented classification exactly for the lines without such white
space; and texts, comments and embedded engines are the lines that swallow what is deeper. -/
theorem ofContent_classified (content : List Char) :
    (∀ result, Head.ofContent content = result ↔ Classifies NamesLoose content result) ∧
      ((∀ result, Head.ofContent content = result ↔ Classifies NamesBare content result) ↔
        ¬ SpacesColon content) ∧
      (SwallowsDeeper content ↔ OpensVerbatim NamesLoose content) :=
  ⟨fun _ => ofContent_eq_iff, documented_iff, swallowsDeeper_iff⟩

/-- A line that the documents call a tag: there is a blank before its colon.  It is read as an
embedded engine and swallows what is deeper. -/
theorem engine_before_spaced_colon :
    IsContent "ruby :".toList ∧
      Classifies NamesBare "ruby :".toList (.ok (.markup .tag "ruby :")) ∧
      ¬ OpensVerbatim NamesBare "ruby :".toList ∧
      Head.ofContent "ruby :".toList = .ok (.markup .embedded "ruby") ∧
      SwallowsDeeper "ruby :".toList := by
  have named : ∀ c ∈ "ruby".toList, isNameChar c = true := List.all_eq_true.mp (by decide)
  have white : ∀ c ∈ [' '], isWhiteSpace c = true := List.forall_mem_singleton.mpr (by decide)
  have spaced : SpacesColon "ruby :".toList :=
    ⟨"ruby".toList, [' '], by decide, named, by decide, white, rfl⟩
  have names : NamesLoose "ruby :".toList "ruby".toList := ⟨by decide, named, [' '], rfl, white⟩
  have content : IsContent "ruby :".toList := by
    refine ⟨⟨by decide, ?_⟩, by decide, ?_⟩
    · rintro c ⟨⟩
      decide
    · rintro c ⟨⟩
      decide
  refine ⟨content, .tag names.plain spaced.not_namesBare, ?_, ?_, ?_⟩
  · rintro (⟨mark, marks, ⟨⟩⟩ | ⟨name, bare⟩)
    · exact absurd marks (by decide)
    · exact spaced.not_namesBare name bare
  · exact ofContent_eq_iff.mpr (.embedded names.plain names)
  · exact swallowsDeeper_iff.mpr (.inr ⟨_, names⟩)

end Specimen.Template
