/-
# Specimen.Proofs.Template.Relayout — only the order of the indentations counts.

How deep a line is indented is of no account in itself.  If two runs of lines say the same, line by
line, and their indentations compare in the same way, then the grammar makes the same nodes of them.
The correspondence of the indentations is a parameter: any relation that keeps `<` in both
directions will do, and blank lines are free of it.
-/
import Mathlib.Data.List.Forall2
import Specimen.Proofs.Template.Grammar

namespace Specimen.Template

/-- A correspondence of indentations that keeps their order. -/
def KeepsOrder (R : Nat → Nat → Prop) : Prop :=
  ∀ a a' b b', R a a' → R b b' → (a < b ↔ a' < b')

/-- The lines say the same, and unless they are blank, their indentations correspond. -/
structure Corresponds (R : Nat → Nat → Prop) (line line' : Line) : Prop where
  content_eq : line'.content = line.content
  indent : line.isBlank = false → R line.indent line'.indent

variable {R : Nat → Nat → Prop} {line line' : Line} {lines lines' : List Line}

theorem KeepsOrder.unique (order : KeepsOrder R) {a b c : Nat} (first : R a b) (second : R a c) :
    b = c := by
  have up := order a b a c first second
  have down := order a c a b second first
  omega

theorem Corresponds.isBlank_eq (same : Corresponds R line line') :
    line'.isBlank = line.isBlank := by
  rw [Line.isBlank, Line.isBlank, same.content_eq]

theorem Corresponds.keptNode_eq (same : Corresponds R line line') :
    line'.keptNode = line.keptNode := by
  rw [Line.keptNode, Line.keptNode, same.isBlank_eq, same.content_eq]

theorem map_keptNode_eq (same : List.Forall₂ (Corresponds R) lines lines') :
    lines'.map Line.keptNode = lines.map Line.keptNode := by
  induction same with
  | nil => rfl
  | cons first _ ih => rw [List.map_cons, List.map_cons, first.keptNode_eq, ih]

/-- Lines that stay deeper stay so. -/
theorem Deeper.relayout (order : KeepsOrder R) {indent indent' : Nat} (block : R indent indent')
    (same : List.Forall₂ (Corresponds R) lines lines') (deeper : Deeper indent lines) :
    Deeper indent' lines' := by
  induction same with
  | nil => exact nofun
  | @cons line line' lines lines' first _ ih =>
      have others : Deeper indent lines := deeper.of_subset (List.subset_cons_self _ _)
      refine .cons (fun nonblank => ?_) (ih others)
      rw [first.isBlank_eq] at nonblank
      have less := deeper line List.mem_cons_self nonblank
      exact (order _ _ _ _ block (first.indent nonblank)).mp less

theorem Opens.relayout (order : KeepsOrder R) {level level' : Option Nat} {head : Head}
    (levels : Option.Rel R level level') (same : Corresponds R line line')
    (opens : Opens level line head) : Opens level' line' head := by
  refine ⟨same.isBlank_eq.trans opens.nonblank, fun indent' fixed' => ?_, ?_⟩
  · cases levels with
    | none => cases fixed'
    | @some indent _ corresponds =>
        obtain rfl := Option.some.inj fixed'
        have here := same.indent opens.nonblank
        rw [opens.atLevel indent rfl] at here
        exact order.unique here corresponds
  · rw [same.content_eq]
    exact opens.head_eq

theorem forall₂_append_split {α β : Type} {S : α → β → Prop} {a b : List α} {c : List β}
    (h : List.Forall₂ S (a ++ b) c) :
    ∃ a' b', c = a' ++ b' ∧ List.Forall₂ S a a' ∧ List.Forall₂ S b b' := by
  induction a generalizing c with
  | nil => exact ⟨[], c, rfl, .nil, h⟩
  | cons x a ih =>
      cases h with
      | @cons _ y _ _ first others =>
          obtain ⟨a', b', rfl, left, right⟩ := ih others
          exact ⟨y :: a', b', rfl, .cons first left, right⟩

/-- Lines that correspond make the same nodes. -/
theorem Reads.relayout (order : KeepsOrder R) {level level' : Option Nat} {nodes : List Node}
    (reads : Reads level lines nodes) (levels : Option.Rel R level level')
    (same : List.Forall₂ (Corresponds R) lines lines') : Reads level' lines' nodes := by
  induction reads generalizing level' lines' with
  | nil =>
      cases same
      exact .nil
  | blank blank _ ih =>
      cases levels
      cases same with
      | cons first others => exact .blank (first.isBlank_eq.trans blank) (ih .none others)
  | block opens deeper kept nested _ ihBody ihRest =>
      cases same with
      | cons first others =>
          obtain ⟨body', rest', rfl, sameBody, sameRest⟩ := forall₂_append_split others
          have indents := first.indent opens.nonblank
          refine .block (opens.relayout order levels first) (deeper.relayout order indents sameBody)
            ?_ ?_ (ihRest (.some indents) sameRest)
          · intro verbatim
            rw [kept verbatim, map_keptNode_eq sameBody]
          · intro interpreted
            exact ihBody interpreted .none sameBody

end Specimen.Template
