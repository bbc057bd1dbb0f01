/-
# Specimen.Proofs.Template.Offence — which line of a source is at fault.

A structural line can offend in two ways.  It is misplaced if it is not indented deeper than the
structural line before it and no block of its own indentation is open for it to follow; and it
lacks code if it is an indicator of code and nothing else.  Both can be said of the lines alone,
without reading them one by one.  A source is a template exactly if none of its lines offends, and
otherwise the first that does is reported.

The reading keeps a stack of open blocks.  `openLines` says which lines those blocks come from, and
`Tracks` is the invariant that the profile of the stack is made of them.
-/
import Specimen.Proofs.Template.Nesting
import Specimen.Proofs.Template.Profile
import Specimen.Proofs.Text.Trim

namespace Specimen.Template

open Text

variable {lines : List Line}

/-! ## Offences -/

/-- The block that line `j` opens is still open when line `i` is reached: every structural line
between them is indented deeper. -/
def IsOpen (lines : List Line) (i j : Nat) : Prop :=
  j < i ∧ isStructural lines j = true ∧ ∀ k, j < k → k < i → isStructural lines k = true →
    (lineAt lines j).indent < (lineAt lines k).indent

/-- The line is not indented deeper than the structural line before it, and no open block has its
indentation. -/
structure Misplaced (lines : List Line) (i : Nat) : Prop where
  structural : isStructural lines i = true
  shallow : ∃ p ∈ lastBelow? (isStructural lines) i,
    (lineAt lines i).indent ≤ (lineAt lines p).indent
  unmatched : ∀ j, IsOpen lines i j → (lineAt lines j).indent ≠ (lineAt lines i).indent

/-- The line is an indicator of code with nothing behind it. -/
structure LacksCode (lines : List Line) (i : Nat) (kind : CallKind) : Prop where
  structural : isStructural lines i = true
  content_eq : (lineAt lines i).content = kind.indicator.toList

/-- The line is at fault, in one way or in both. -/
def Offends (lines : List Line) (i : Nat) : Prop :=
  Misplaced lines i ∨ ∃ kind, LacksCode lines i kind

/-- What is reported of a line at fault, its number counted from one.  If it offends in both ways,
it is reported as misplaced. -/
inductive Reports (lines : List Line) (i : Nat) : ParseError → Prop
  | misplaced : Misplaced lines i → Reports lines i (.malformedIndentation (i + 1))
  | lacksCode {kind : CallKind} : ¬ Misplaced lines i → LacksCode lines i kind →
      Reports lines i (.missingCode (i + 1) kind)

/-- The line that a fault is reported of, counted from one. -/
def ParseError.line : ParseError → Nat
  | malformedIndentation line => line
  | missingCode line _ => line

theorem Reports.offends {i : Nat} {fault : ParseError} (reports : Reports lines i fault) :
    Offends lines i := by
  cases reports with
  | misplaced misplaced => exact .inl misplaced
  | lacksCode _ lacks => exact .inr ⟨_, lacks⟩

theorem Offends.structural {i : Nat} (offends : Offends lines i) :
    isStructural lines i = true := by
  rcases offends with misplaced | ⟨_, lacks⟩
  · exact misplaced.structural
  · exact lacks.structural

theorem indicator_injective {kind kind' : CallKind}
    (same : kind.indicator.toList = kind'.indicator.toList) : kind = kind' := by
  revert same
  cases kind <;> cases kind' <;> decide

/-- One fault is reported of a line. -/
theorem Reports.unique {i : Nat} {fault fault' : ParseError} (reports : Reports lines i fault)
    (reports' : Reports lines i fault') : fault = fault' := by
  cases reports with
  | misplaced misplaced =>
      cases reports' with
      | misplaced => rfl
      | lacksCode fits => exact absurd misplaced fits
  | lacksCode fits lacks =>
      cases reports' with
      | misplaced misplaced => exact absurd misplaced fits
      | lacksCode _ lacks' =>
          rw [indicator_injective (lacks.content_eq.symm.trans lacks'.content_eq)]

/-! ## Code that is missing -/

theorem ofCode_eq_error_iff {kind kind' : CallKind} {rest : List Char} :
    Head.ofCode kind rest = .error kind' ↔ kind = kind' ∧ trim rest = [] := by
  unfold Head.ofCode
  split
  · next empty => simp [empty]
  · next code => simp [code]

/-- Behind an indicator, content that is trimmed at its end lacks code only if it ends there. -/
theorem trim_eq_nil_iff_of_plain (indicator : List Char) {rest : List Char}
    (plain : EndsPlain (indicator ++ rest)) : trim rest = [] ↔ rest = [] := by
  rw [trim_eq_nil_iff]
  constructor
  · intro white
    by_cases nonempty : rest = []
    · exact nonempty
    · exact ((endsPlain_append nonempty).mp plain).eq_nil white
  · rintro rfl
    exact nofun

/-- Only an indicator of code by itself gives no head. -/
theorem ofContent_eq_error_iff {content : List Char} {kind : CallKind}
    (plain : EndsPlain content) :
    Head.ofContent content = .error kind ↔ content = kind.indicator.toList := by
  unfold Head.ofContent
  split
  · next rest =>
    rw [ofCode_eq_error_iff, trim_eq_nil_iff_of_plain ['=', '='] plain]
    cases kind <;> simp [CallKind.indicator]
  · next rest twice =>
    rw [ofCode_eq_error_iff, trim_eq_nil_iff_of_plain ['='] plain]
    cases kind <;> simp [CallKind.indicator]
    exact twice []
  · next rest =>
    rw [ofCode_eq_error_iff, trim_eq_nil_iff_of_plain ['-'] plain]
    cases kind <;> simp [CallKind.indicator]
  iterate 4
    · cases kind <;> simp [CallKind.indicator]
  · next twice once control _ _ _ _ =>
    have other : content ≠ kind.indicator.toList := by
      cases kind with
      | control => exact control []
      | output => exact once []
      | unescapedOutput => exact twice []
    split <;> simp [other]

theorem endsPlain_content {source : String} {line : Line} (member : line ∈ sourceLines source) :
    EndsPlain line.content := by
  obtain ⟨cs, -, rfl⟩ := List.mem_map.mp member
  exact endsPlain_trimEnd _

theorem endsPlain_lineAt (plain : ∀ line ∈ lines, EndsPlain line.content) (i : Nat) :
    EndsPlain (lineAt lines i).content := by
  rw [lineAt, List.getD_eq_getElem?_getD]
  cases found : lines[i]? with
  | none => exact endsPlain_nil
  | some line => exact plain line (List.mem_of_getElem? found)

/-! ## Structural lines and the structural line before them -/

/-- A line that is not blank is swallowed exactly if the structural line before it opens a verbatim
block and is indented less. -/
theorem not_isStructural_iff {i : Nat} (nonblank : (lineAt lines i).isBlank = false) :
    isStructural lines i = false ↔
      ∃ p ∈ lastBelow? (isStructural lines) i, (lineAt lines p).opensVerbatim = true ∧
        (lineAt lines p).indent < (lineAt lines i).indent := by
  constructor
  · intro swallowed
    obtain ⟨v, lt, swallows⟩ := exists_swallows nonblank swallowed
    refine ⟨v, lastBelow?_eq_some_iff.mpr ⟨lt, swallows.1, ?_⟩, swallows.2.1, ?_⟩
    · intro k gt ltk
      exact not_isStructural_of_swallows gt (swallows.of_le (Nat.le_of_lt ltk))
    · exact swallows.2.2 i (Nat.le_refl i) lt nonblank
  · rintro ⟨p, last, verbatim, deeper⟩
    obtain ⟨lt, structural, later⟩ := lastBelow?_eq_some_iff.mp last
    refine not_isStructural_of_swallows lt ⟨structural, verbatim, ?_⟩
    intro j le gt nonblank'
    rcases Nat.lt_or_eq_of_le le with ltj | rfl
    · -- the line is swallowed; what swallows it can only be `p`, the last structural line
      obtain ⟨v, ltv, swallows⟩ := exists_swallows nonblank' (later j gt ltj)
      rcases Nat.lt_trichotomy v p with before | rfl | after
      · have swallowed := not_isStructural_of_swallows before (swallows.of_le (Nat.le_of_lt gt))
        simp [swallowed] at structural
      · exact swallows.2.2 j (Nat.le_refl j) gt nonblank'
      · have passed := later v after (Nat.lt_trans ltv ltj)
        simp [swallows.1] at passed
    · exact deeper

/-! ## The lines whose blocks are open -/

/-- The lines whose blocks are open when line `i` is reached, the last first. -/
def openLines (lines : List Line) : Nat → List Nat
  | 0 => []
  | i + 1 =>
    if isStructural lines i then
      i :: (openLines lines i).filter fun j => (lineAt lines j).indent < (lineAt lines i).indent
    else openLines lines i

theorem openLines_succ_of_structural {i : Nat} (structural : isStructural lines i = true) :
    openLines lines (i + 1) = i :: (openLines lines i).filter fun j =>
      (lineAt lines j).indent < (lineAt lines i).indent := if_pos structural

theorem openLines_succ_of_not_structural {i : Nat} (h : isStructural lines i = false) :
    openLines lines (i + 1) = openLines lines i := if_neg (by simp [h])

/-- A structural line opens a block and ends those that are not indented less. -/
theorem isOpen_succ_iff {i j : Nat} : IsOpen lines (i + 1) j ↔
    (j = i ∧ isStructural lines i = true) ∨
      (IsOpen lines i j ∧ (isStructural lines i = true →
        (lineAt lines j).indent < (lineAt lines i).indent)) := by
  constructor
  · rintro ⟨lt, structural, deeper⟩
    rcases Nat.lt_succ_iff_lt_or_eq.mp lt with lt | rfl
    · refine .inr ⟨⟨lt, structural, ?_⟩, deeper i lt (Nat.lt_succ_self i)⟩
      intro k gt ltk
      exact deeper k gt (Nat.lt_succ_of_lt ltk)
    · exact .inl ⟨rfl, structural⟩
  · rintro (⟨rfl, structural⟩ | ⟨⟨lt, structural, deeper⟩, here⟩)
    · exact ⟨Nat.lt_succ_self _, structural, fun k gt lt => by omega⟩
    · refine ⟨Nat.lt_succ_of_lt lt, structural, ?_⟩
      intro k gt ltk
      rcases Nat.lt_succ_iff_lt_or_eq.mp ltk with ltk | rfl
      · exact deeper k gt ltk
      · exact here

theorem mem_openLines {i j : Nat} : j ∈ openLines lines i ↔ IsOpen lines i j := by
  induction i with
  | zero => simp [openLines, IsOpen]
  | succ i ih =>
      rw [isOpen_succ_iff, ← ih]
      cases kind : isStructural lines i with
      | true => simp [openLines_succ_of_structural kind]
      | false => simp [openLines_succ_of_not_structural kind]

/-- The innermost open block is the one of the last structural line. -/
theorem head?_openLines (i : Nat) :
    (openLines lines i).head? = lastBelow? (isStructural lines) i := by
  induction i with
  | zero => rfl
  | succ i ih =>
      rw [lastBelow?_succ]
      cases kind : isStructural lines i with
      | true => simp [openLines_succ_of_structural kind]
      | false => simp [openLines_succ_of_not_structural kind, ih]

/-! ## One line -/

/-- What a line makes the stance of a block. -/
def Line.stance (line : Line) : Nat × Bool := (line.indent, line.opensVerbatim)

/-- The lines before line `i` are read without fault, and the open blocks are those of the lines
whose blocks are open. -/
structure Tracks (lines : List Line) (i : Nat) (outline : Outline) : Prop where
  ordered : outline.Ordered
  profile_eq : outline.profile = (openLines lines i).map fun j => (lineAt lines j).stance
  faultless : ∀ j < i, ¬ Offends lines j

theorem tracks_empty : Tracks lines 0 Outline.empty := ⟨ordered_empty, rfl, nofun⟩

theorem Tracks.keeps_iff {i : Nat} {outline : Outline} (tracks : Tracks lines i outline)
    (nonblank : (lineAt lines i).isBlank = false) :
    outline.keeps (lineAt lines i).indent = true ↔ isStructural lines i = false := by
  rw [keeps_iff_profile, not_isStructural_iff nonblank, tracks.profile_eq, List.head?_map,
    head?_openLines]
  simp [Line.stance]

theorem Tracks.enter_eq_none_iff {i : Nat} {outline : Outline} (tracks : Tracks lines i outline)
    (structural : isStructural lines i = true) :
    outline.enter (lineAt lines i).indent = none ↔ Misplaced lines i := by
  rw [Template.enter_eq_none_iff tracks.ordered, tracks.profile_eq, List.head?_map,
    head?_openLines]
  constructor
  · rintro ⟨shallow, unmatched⟩
    refine ⟨structural, by simpa [Line.stance] using shallow, ?_⟩
    intro j isOpen
    exact unmatched _ (List.mem_map_of_mem (mem_openLines.mpr isOpen))
  · rintro ⟨-, shallow, unmatched⟩
    refine ⟨by simpa [Line.stance] using shallow, ?_⟩
    intro stance member
    obtain ⟨j, isOpen, rfl⟩ := List.mem_map.mp member
    exact unmatched j (mem_openLines.mp isOpen)

/-- A line that is neither blank nor kept is structural. -/
theorem Tracks.structural {i : Nat} {outline : Outline} (tracks : Tracks lines i outline)
    (nonblank : (lineAt lines i).isBlank = false)
    (leaves : outline.keeps (lineAt lines i).indent = false) : isStructural lines i = true := by
  rw [← Bool.not_eq_false, ← tracks.keeps_iff nonblank, leaves]
  exact Bool.false_ne_true

/-- A line that is refused is at fault, and the fault is the one to report. -/
theorem Tracks.reports {i : Nat} {outline : Outline} {fault : ParseError}
    (tracks : Tracks lines i outline) (plain : EndsPlain (lineAt lines i).content)
    (refuses : Refuses outline (i + 1) (lineAt lines i) fault) : Reports lines i fault := by
  cases refuses with
  | outOfPlace nonblank leaves closed =>
      have structural := tracks.structural nonblank leaves
      exact .misplaced ((tracks.enter_eq_none_iff structural).mp closed)
  | headless nonblank leaves enters missing =>
      have structural := tracks.structural nonblank leaves
      refine .lacksCode ?_ ⟨structural, (ofContent_eq_error_iff plain).mp missing⟩
      rw [← tracks.enter_eq_none_iff structural, enters]
      exact Option.some_ne_none _

/-- A line that is not structural leaves the open blocks as they are and is never at fault. -/
theorem Tracks.attach {i : Nat} {outline : Outline} (tracks : Tracks lines i outline)
    (swallowed : isStructural lines i = false) (node : Node) :
    Tracks lines (i + 1) (outline.attach node) := by
  refine ⟨ordered_attach.mpr tracks.ordered, ?_, ?_⟩
  · rw [profile_attach, tracks.profile_eq, openLines_succ_of_not_structural swallowed]
  · rw [Nat.forall_lt_succ_right]
    refine ⟨tracks.faultless, ?_⟩
    intro offends
    simp [offends.structural] at swallowed

/-- A structural line that has room and gives a head opens its block and is not at fault. -/
theorem Tracks.openBlock {i : Nat} {outline room : Outline} {head : Head}
    (tracks : Tracks lines i outline) (plain : EndsPlain (lineAt lines i).content)
    (structural : isStructural lines i = true)
    (leaves : outline.keeps (lineAt lines i).indent = false)
    (enters : Enters (lineAt lines i).indent outline room)
    (found : Head.ofContent (lineAt lines i).content = .ok head) :
    Tracks lines (i + 1) (room.openBlock (lineAt lines i).indent head) := by
  obtain ⟨ordered, hasRoom⟩ := enters.ordered tracks.ordered leaves
  refine ⟨ordered_openBlock ordered hasRoom, ?_, ?_⟩
  · -- making room cuts the profile as the line cuts the lines whose blocks are open
    have here : (lineAt lines i).stance = ((lineAt lines i).indent, head.isVerbatim) := by
      simp [Line.stance, Line.opensVerbatim, found]
    rw [profile_openBlock, enters.profile_eq tracks.ordered, tracks.profile_eq,
      openLines_succ_of_structural structural, List.map_cons, here, List.filter_map]
    rfl
  · rw [Nat.forall_lt_succ_right]
    refine ⟨tracks.faultless, ?_⟩
    rintro (misplaced | ⟨kind, lacks⟩)
    · have closed := (tracks.enter_eq_none_iff structural).mpr misplaced
      simp [enter_eq_some_iff.mpr enters] at closed
    · have missing := (ofContent_eq_error_iff plain).mpr lacks.content_eq
      simp [found] at missing

/-- A line that is taken in is not at fault, and the open blocks are tracked past it. -/
theorem Tracks.next {i : Nat} {outline next : Outline} (tracks : Tracks lines i outline)
    (plain : EndsPlain (lineAt lines i).content) (takes : Takes outline (lineAt lines i) next) :
    Tracks lines (i + 1) next := by
  cases takes with
  | blank blank => exact tracks.attach (not_isStructural_of_blank blank) _
  | kept nonblank keeps => exact tracks.attach ((tracks.keeps_iff nonblank).mp keeps) _
  | opened nonblank leaves enters found =>
      exact tracks.openBlock plain (tracks.structural nonblank leaves) leaves enters found

/-! ## Runs of lines -/

/-- A run either passes all lines, and then none is at fault, or ends with what there is to report
of the first that is. -/
theorem Tracks.run {i : Nat} {outline : Outline} (tracks : Tracks lines i outline)
    (plain : ∀ line ∈ lines, EndsPlain line.content) :
    (∃ final, outline.addLines (i + 1) (lines.drop i) = .ok final ∧ ∀ j, ¬ Offends lines j) ∨
      (∃ fault n, outline.addLines (i + 1) (lines.drop i) = .error fault ∧
        Reports lines n fault ∧ ∀ j < n, ¬ Offends lines j) := by
  generalize remaining : lines.drop i = rest
  -- on the lines that are still to come; `Tracks` carries what is known of those before them
  induction rest generalizing i outline with
  | nil =>
      refine .inl ⟨outline, rfl, ?_⟩
      intro j offends
      have past : lines.length ≤ i := List.drop_eq_nil_iff.mp remaining
      have inside : j < lines.length := lt_length_of_structural offends.structural
      exact tracks.faultless j (Nat.lt_of_lt_of_le inside past) offends
  | cons line rest ih =>
      have here : lineAt lines i = line := by
        rw [lineAt, List.getD_eq_getElem?_getD, ← List.head?_drop, remaining]
        rfl
      have others : lines.drop (i + 1) = rest := by
        rw [← List.drop_drop, remaining, List.drop_one, List.tail_cons]
      subst here
      have ends := endsPlain_lineAt plain i
      rw [Outline.addLines]
      cases step : outline.addLine (i + 1) (lineAt lines i) with
      | error fault =>
          have reports := tracks.reports ends (refuses_of_addLine step)
          exact .inr ⟨fault, i, rfl, reports, tracks.faultless⟩
      | ok next => exact ih (tracks.next ends (addLine_eq_ok_iff.mp step)) others

/-- A run that ends with a fault already ends with it when the lines stop after the one at fault. -/
theorem addLines_take_of_error {outline : Outline} {number : Nat} {lines : List Line}
    {fault : ParseError} (h : outline.addLines number lines = .error fault) :
    ∃ n, fault.line = number + n ∧
      outline.addLines number (lines.take (n + 1)) = .error fault := by
  induction lines generalizing outline number with
  | nil => cases h
  | cons line lines ih =>
      rw [Outline.addLines] at h
      cases step : outline.addLine number line with
      | error fault' =>
          obtain rfl : fault' = fault := by simpa [step] using h
          have here : fault'.line = number := by cases refuses_of_addLine step <;> rfl
          refine ⟨0, here, ?_⟩
          rw [List.take_succ_cons, Outline.addLines, step]
      | ok next =>
          rw [step] at h
          obtain ⟨n, later, stops⟩ := ih h
          refine ⟨n + 1, by omega, ?_⟩
          rw [List.take_succ_cons, Outline.addLines, step]
          exact stops

/-! ## Templates -/

/-- A source either is a template, and then no line is at fault, or the first line at fault is
reported. -/
theorem parse_settles (source : String) :
    (∃ root, parse source = .ok root ∧ ∀ i, ¬ Offends (sourceLines source) i) ∨
      (∃ fault i, parse source = .error fault ∧ Reports (sourceLines source) i fault ∧
        ∀ j < i, ¬ Offends (sourceLines source) j) := by
  have start : Tracks (sourceLines source) 0 Outline.empty := tracks_empty
  rcases start.run fun _ => endsPlain_content with ⟨final, run, none⟩ | ⟨fault, i, run, first⟩
  · refine .inl ⟨final.finish, ?_, none⟩
    rw [parse, ← List.drop_zero (l := sourceLines source), run]
    rfl
  · refine .inr ⟨fault, i, ?_, first⟩
    rw [parse, ← List.drop_zero (l := sourceLines source), run]
    rfl

/-- The fault of the first line that offends is the one that is reported. -/
theorem parse_eq_error_iff {source : String} {fault : ParseError} :
    parse source = .error fault ↔
      ∃ i, Reports (sourceLines source) i fault ∧ ∀ j < i, ¬ Offends (sourceLines source) j := by
  rcases parse_settles source with ⟨root, parsed, none⟩ | ⟨fault', i, failed, reports, first⟩
  · rw [parsed]
    refine ⟨nofun, ?_⟩
    rintro ⟨i, reports, -⟩
    exact absurd reports.offends (none i)
  · rw [failed]
    constructor
    · intro same
      obtain rfl := Except.error.inj same
      exact ⟨i, reports, first⟩
    · rintro ⟨i', reports', first'⟩
      rcases Nat.lt_trichotomy i i' with before | rfl | after
      · exact absurd reports.offends (first' i before)
      · rw [reports.unique reports']
      · exact absurd reports'.offends (first i' after)

/-- What comes after the line at fault does not matter. -/
theorem parse_eq_error_of_take {source later : String} {fault : ParseError}
    (h : parse source = .error fault)
    (same : (sourceLines later).take fault.line = (sourceLines source).take fault.line) :
    parse later = .error fault := by
  obtain ⟨n, here, stops⟩ := addLines_take_of_error (run_of_parse_error h)
  rw [here, Nat.add_comm] at same
  rw [parse, ← List.take_append_drop (n + 1) (sourceLines later), same, addLines_append, stops]
  rfl

/-- A source is a template exactly if no line offends.  Otherwise the first line that does is
reported, as misplaced if it is that and else for the code it lacks, and nothing after this line
makes a difference. -/
theorem parse_first_offence (source : String) :
    ((∃ root, parse source = .ok root) ↔ ∀ i, ¬ Offends (sourceLines source) i) ∧
      (∀ fault, parse source = .error fault ↔
        ∃ i, Reports (sourceLines source) i fault ∧ ∀ j < i, ¬ Offends (sourceLines source) j) ∧
      (∀ fault later, parse source = .error fault →
        (sourceLines later).take fault.line = (sourceLines source).take fault.line →
        parse later = .error fault) := by
  refine ⟨?_, fun fault => parse_eq_error_iff, fun fault later => parse_eq_error_of_take⟩
  rcases parse_settles source with ⟨root, parsed, none⟩ | ⟨fault, i, failed, reports, -⟩
  · exact ⟨fun _ => none, fun _ => ⟨root, parsed⟩⟩
  · constructor
    · rintro ⟨root, parsed⟩
      simp [failed] at parsed
    · intro none
      exact absurd reports.offends (none i)

/-- A line that falls between two levels is reported, and what follows it is not looked at. -/
theorem parse_first_offence_sample :
    parse "div\n    p\n  span\n-" = .error (.malformedIndentation 3) ∧
      ¬ Offends (sourceLines "div\n    p\n  span\n-") 1 ∧
      parse "div\n    p\n  span" = .error (.malformedIndentation 3) := by
  have failed : parse "div\n    p\n  span\n-" = .error (.malformedIndentation 3) := by rfl
  obtain ⟨-, first, cut⟩ := parse_first_offence "div\n    p\n  span\n-"
  obtain ⟨i, reports, before⟩ := (first _).mp failed
  obtain rfl : i = 2 := by cases reports; rfl
  exact ⟨failed, before 1 (by decide), cut _ _ failed (by decide +kernel)⟩

end Specimen.Template
