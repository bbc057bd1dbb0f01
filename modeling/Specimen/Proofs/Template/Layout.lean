/-
# Specimen.Proofs.Template.Layout — how far lines are indented is of no account.

Two sources have the same layout if their lines say the same, one by one, and compare in the same
way by indentation.  Such sources have the same tree, or the same fault in the same line.  For a
tree this is what the grammar gives; for a fault it is enough that whether a line is structural, and
whether it offends, can be said by comparing indentations.

The usual changes to a file keep the layout: another unit of indentation, blanks for tabs, white
space at the ends of lines or on blank lines, carriage returns, a final newline that was missing.
-/
import Specimen.Proofs.Outdent
import Specimen.Proofs.Template.Offence
import Specimen.Proofs.Template.Reading

namespace Specimen.Template

open Text Unicode

/-! ## The same layout -/

/-- The lines say the same, and of any two that are not blank, one is indented less than the other
in both or in neither. -/
structure SameLayout (lines lines' : List Line) : Prop where
  length_eq : lines'.length = lines.length
  content_eq : ∀ i < lines.length, (lineAt lines' i).content = (lineAt lines i).content
  order_iff : ∀ i < lines.length, ∀ j < lines.length,
    (lineAt lines i).isBlank = false → (lineAt lines j).isBlank = false →
      ((lineAt lines i).indent < (lineAt lines j).indent ↔
        (lineAt lines' i).indent < (lineAt lines' j).indent)

instance (lines lines' : List Line) : Decidable (SameLayout lines lines') :=
  decidable_of_iff
    (lines'.length = lines.length ∧
      (∀ i < lines.length, (lineAt lines' i).content = (lineAt lines i).content) ∧
      ∀ i < lines.length, ∀ j < lines.length,
        (lineAt lines i).isBlank = false → (lineAt lines j).isBlank = false →
          ((lineAt lines i).indent < (lineAt lines j).indent ↔
            (lineAt lines' i).indent < (lineAt lines' j).indent))
    ⟨fun h => ⟨h.1, h.2.1, h.2.2⟩, fun h => ⟨h.length_eq, h.content_eq, h.order_iff⟩⟩

namespace SameLayout

variable {lines lines' : List Line}

theorem content (same : SameLayout lines lines') (i : Nat) :
    (lineAt lines' i).content = (lineAt lines i).content := by
  by_cases inside : i < lines.length
  · exact same.content_eq i inside
  · have past : lines.length ≤ i := Nat.le_of_not_lt inside
    rw [lineAt_of_le past, lineAt_of_le (by rw [same.length_eq]; exact past)]

theorem isBlank (same : SameLayout lines lines') (i : Nat) :
    (lineAt lines' i).isBlank = (lineAt lines i).isBlank := by
  rw [Line.isBlank, Line.isBlank, same.content i]

theorem lt_iff (same : SameLayout lines lines') {i j : Nat}
    (first : (lineAt lines i).isBlank = false) (second : (lineAt lines j).isBlank = false) :
    (lineAt lines i).indent < (lineAt lines j).indent ↔
      (lineAt lines' i).indent < (lineAt lines' j).indent :=
  same.order_iff i (lt_length_of_nonblank first) j (lt_length_of_nonblank second) first second

theorem le_iff (same : SameLayout lines lines') {i j : Nat}
    (first : (lineAt lines i).isBlank = false) (second : (lineAt lines j).isBlank = false) :
    (lineAt lines i).indent ≤ (lineAt lines j).indent ↔
      (lineAt lines' i).indent ≤ (lineAt lines' j).indent := by
  rw [← Nat.not_lt, ← Nat.not_lt, same.lt_iff second first]

theorem symm (same : SameLayout lines lines') : SameLayout lines' lines := by
  refine ⟨same.length_eq.symm, ?_, ?_⟩
  · intro i _
    exact (same.content i).symm
  · intro i _ j _ first second
    rw [same.isBlank] at first second
    exact (same.lt_iff first second).symm

theorem opensVerbatim (same : SameLayout lines lines') (i : Nat) :
    (lineAt lines' i).opensVerbatim = (lineAt lines i).opensVerbatim := by
  rw [Line.opensVerbatim, Line.opensVerbatim, same.content i]

/-! ## What is said by comparing indentations -/

theorem staysDeeper (same : SameLayout lines lines') {v i : Nat}
    (nonblank : (lineAt lines v).isBlank = false) (deeper : StaysDeeper lines v i) :
    StaysDeeper lines' v i := by
  intro j le lt nonblank'
  rw [same.isBlank] at nonblank'
  exact (same.lt_iff nonblank nonblank').mp (deeper j le lt nonblank')

/-- The same lines are structural. -/
theorem isStructural_eq (same : SameLayout lines lines') (i : Nat) :
    isStructural lines' i = isStructural lines i := by
  -- what swallows a line is an earlier structural line, and those are the same already
  induction i using Nat.strongRecOn with
  | ind i ih =>
      have swallows_iff : ∀ v < i, (Swallows lines' v i ↔ Swallows lines v i) := by
        intro v lt
        rw [Swallows, Swallows, ih v lt, same.opensVerbatim v]
        apply and_congr_right
        intro structural
        apply and_congr_right
        intro _
        have nonblank := (isStructural_iff.mp structural).1
        constructor
        · exact same.symm.staysDeeper (by rw [same.isBlank]; exact nonblank)
        · exact same.staysDeeper nonblank
      rw [Bool.eq_iff_iff, isStructural_iff, isStructural_iff, same.isBlank i]
      apply and_congr_right
      intro _
      exact forall₂_congr fun v lt => not_congr (swallows_iff v lt)

theorem nonblank (same : SameLayout lines lines') {i : Nat}
    (structural : isStructural lines' i = true) : (lineAt lines i).isBlank = false := by
  rw [same.isStructural_eq] at structural
  exact (isStructural_iff.mp structural).1

theorem isOpen (same : SameLayout lines lines') {i j : Nat} (h : IsOpen lines' i j) :
    IsOpen lines i j := by
  obtain ⟨lt, structural, deeper⟩ := h
  refine ⟨lt, by rwa [← same.isStructural_eq], ?_⟩
  intro k gt ltk other
  rw [← same.isStructural_eq] at other
  exact (same.lt_iff (same.nonblank structural) (same.nonblank other)).mpr
    (deeper k gt ltk other)

theorem misplaced (same : SameLayout lines lines') {i : Nat} (h : Misplaced lines i) :
    Misplaced lines' i := by
  obtain ⟨structural, ⟨p, last, shallow⟩, unmatched⟩ := h
  have here : (lineAt lines i).isBlank = false := (isStructural_iff.mp structural).1
  refine ⟨by rwa [same.isStructural_eq], ⟨p, ?_, ?_⟩, ?_⟩
  · have all : isStructural lines' = isStructural lines := funext same.isStructural_eq
    rwa [all]
  · have before : (lineAt lines p).isBlank = false :=
      (isStructural_iff.mp (lastBelow?_eq_some_iff.mp last).2.1).1
    exact (same.le_iff here before).mp shallow
  · -- equal indentations stay equal, because neither is less than the other
    intro j isOpen equal
    have other : (lineAt lines j).isBlank = false := same.nonblank isOpen.2.1
    apply unmatched j (same.isOpen isOpen)
    have below := (same.le_iff other here).mpr (Nat.le_of_eq equal)
    have above := (same.le_iff here other).mpr (Nat.le_of_eq equal.symm)
    exact Nat.le_antisymm below above

theorem misplaced_iff (same : SameLayout lines lines') {i : Nat} :
    Misplaced lines i ↔ Misplaced lines' i :=
  ⟨same.misplaced, same.symm.misplaced⟩

theorem lacksCode (same : SameLayout lines lines') {i : Nat} {kind : CallKind}
    (h : LacksCode lines i kind) : LacksCode lines' i kind := by
  refine ⟨?_, ?_⟩
  · rw [same.isStructural_eq]
    exact h.structural
  · rw [same.content]
    exact h.content_eq

theorem offends (same : SameLayout lines lines') {i : Nat} (h : Offends lines i) :
    Offends lines' i := by
  rcases h with misplaced | ⟨kind, lacks⟩
  · exact .inl (same.misplaced misplaced)
  · exact .inr ⟨kind, same.lacksCode lacks⟩

theorem reports (same : SameLayout lines lines') {i : Nat} {fault : ParseError}
    (h : Reports lines i fault) : Reports lines' i fault := by
  cases h with
  | misplaced misplaced => exact .misplaced (same.misplaced misplaced)
  | lacksCode fits lacks =>
      rw [same.misplaced_iff] at fits
      exact .lacksCode fits (same.lacksCode lacks)

/-! ## Layouts and correspondences -/

/-- The indentations of lines in the same layout correspond, line by line. -/
theorem corresponds (same : SameLayout lines lines') :
    ∃ R, KeepsOrder R ∧ List.Forall₂ (Corresponds R) lines lines' := by
  -- two indentations correspond if some line has the one here and the other there
  refine ⟨fun a a' => ∃ i, (lineAt lines i).isBlank = false ∧ a = (lineAt lines i).indent ∧
    a' = (lineAt lines' i).indent, ?_, ?_⟩
  · rintro a a' b b' ⟨i, first, rfl, rfl⟩ ⟨j, second, rfl, rfl⟩
    exact same.lt_iff first second
  · apply List.forall₂_iff_get.mpr
    refine ⟨same.length_eq.symm, ?_⟩
    intro i inside inside'
    have here : lineAt lines i = lines.get ⟨i, inside⟩ := lineAt_of_lt inside
    have here' : lineAt lines' i = lines'.get ⟨i, inside'⟩ := lineAt_of_lt inside'
    rw [← here, ← here']
    exact ⟨same.content i, fun nonblank => ⟨i, nonblank, rfl, rfl⟩⟩

theorem of_corresponds {R : Nat → Nat → Prop} (order : KeepsOrder R)
    (same : List.Forall₂ (Corresponds R) lines lines') : SameLayout lines lines' := by
  obtain ⟨length_eq, each⟩ := List.forall₂_iff_get.mp same
  have at' : ∀ i < lines.length, Corresponds R (lineAt lines i) (lineAt lines' i) := by
    intro i inside
    have inside' : i < lines'.length := length_eq ▸ inside
    rw [lineAt_of_lt inside, lineAt_of_lt inside']
    exact each i inside inside'
  refine ⟨length_eq.symm, fun i inside => (at' i inside).content_eq, ?_⟩
  intro i insideI j insideJ first second
  exact order _ _ _ _ ((at' i insideI).indent first) ((at' j insideJ).indent second)

end SameLayout

/-- Sources in the same layout have the same tree, or the same fault in the same line. -/
theorem parse_eq_of_sameLayout {source source' : String}
    (same : SameLayout (sourceLines source) (sourceLines source')) :
    parse source' = parse source := by
  cases parsed : parse source with
  | ok root =>
      obtain ⟨nodes, reads, rfl⟩ := parse_eq_ok_iff.mp parsed
      obtain ⟨R, order, corresponds⟩ := same.corresponds
      exact parse_eq_ok_iff.mpr ⟨nodes, reads.relayout order .none corresponds, rfl⟩
  | error fault =>
      obtain ⟨i, reports, first⟩ := parse_eq_error_iff.mp parsed
      refine parse_eq_error_iff.mpr ⟨i, same.reports reports, ?_⟩
      intro j lt offends
      exact first j lt (same.symm.offends offends)

end Specimen.Template
