/-
# Specimen.Proofs.Template.Concatenation — templates one after the other.

A source that ends with a newline can be followed by another one.  If the second starts with a line
of the first one's base indentation, that line closes all blocks that the first has left open, and
from there on everything goes as if the second stood alone: its nodes come behind those of the
first, and its faults are reported so many lines further down.

`Outline.base?` is the indentation of the outermost open block.  It is set by the first line that is
not blank and never changes; a line of this indentation finds room at the top level, whatever is
open.
-/
import Specimen.Proofs.Template.Step
import Specimen.Proofs.Text.Pieces

namespace Specimen.Template

open Text

/-! ## Reading below other nodes -/

/-- The fault, so many lines further down. -/
def ParseError.shift (count : Nat) : ParseError → ParseError
  | malformedIndentation line => malformedIndentation (line + count)
  | missingCode line kind => missingCode (line + count) kind

/-- The outline, below nodes that stand at the top level already. -/
def Outline.below (before : Array Node) (outline : Outline) : Outline :=
  { outline with top := before ++ outline.top }

/-- What a run gives, moved down: below other nodes, and so many lines further. -/
def moved (before : Array Node) (count : Nat) :
    Except ParseError Outline → Except ParseError Outline
  | .error fault => .error (fault.shift count)
  | .ok outline => .ok (outline.below before)

@[simp]
theorem below_mk (before top : Array Node) (blocks : List OpenBlock) :
    Outline.below before ⟨top, blocks⟩ = ⟨before ++ top, blocks⟩ := rfl

@[simp]
theorem attach_below (before : Array Node) (outline : Outline) (node : Node) :
    (outline.below before).attach node = (outline.attach node).below before := by
  obtain ⟨top, blocks⟩ := outline
  cases blocks <;> simp

theorem closeTo_below (before : Array Node) (indent : Nat) (top : Array Node) (block : OpenBlock)
    (outer : List OpenBlock) :
    Outline.closeTo indent (before ++ top) block outer =
      (Outline.closeTo indent top block outer).map (Outline.below before) := by
  induction outer generalizing block with
  | nil =>
      rw [Outline.closeTo, Outline.closeTo]
      split <;> simp
  | cons parent outer ih =>
      rw [Outline.closeTo, Outline.closeTo]
      split
      · exact ih _
      · split <;> simp

theorem enter_below (before : Array Node) (outline : Outline) (indent : Nat) :
    (outline.below before).enter indent = (outline.enter indent).map (Outline.below before) := by
  obtain ⟨top, _ | ⟨block, outer⟩⟩ := outline
  · rfl
  · simp only [Outline.enter, below_mk]
    split
    · rfl
    · exact closeTo_below before indent top block outer

theorem addLine_below (before : Array Node) (count : Nat) (outline : Outline) (number : Nat)
    (line : Line) :
    (outline.below before).addLine (number + count) line =
      moved before count (outline.addLine number line) := by
  have keeps : (outline.below before).keeps line.indent = outline.keeps line.indent := rfl
  rw [Outline.addLine, Outline.addLine, keeps, enter_below]
  split
  · rw [attach_below]
    rfl
  · split
    · rw [attach_below]
      rfl
    · cases outline.enter line.indent with
      | none => rfl
      | some room => cases Head.ofContent line.content <;> rfl

/-- A run below other nodes, further down, goes like the run by itself. -/
theorem addLines_below (before : Array Node) (count : Nat) (outline : Outline) (number : Nat)
    (lines : List Line) :
    (outline.below before).addLines (number + count) lines =
      moved before count (outline.addLines number lines) := by
  induction lines generalizing outline number with
  | nil => rfl
  | cons line lines ih =>
      rw [Outline.addLines, Outline.addLines, addLine_below]
      cases outline.addLine number line with
      | error fault => rfl
      | ok next =>
          have others := ih next (number + 1)
          rw [Nat.add_right_comm] at others
          exact others

theorem closeAll_below (before top : Array Node) (block : OpenBlock) (outer : List OpenBlock) :
    Outline.closeAll (before ++ top) block outer =
      before ++ Outline.closeAll top block outer := by
  induction outer generalizing block with
  | nil => simp [Outline.closeAll]
  | cons parent outer ih => exact ih _

theorem finish_below (before : Array Node) (outline : Outline) :
    (outline.below before).finish = .container (before.toList ++ outline.finish.children) := by
  obtain ⟨top, _ | ⟨block, outer⟩⟩ := outline
  · simp [Outline.finish, Node.children]
  · simp [Outline.finish, Node.children, closeAll_below]

/-! ## The base -/

/-- The indentation of the outermost open block. -/
def Outline.base? (outline : Outline) : Option Nat := outline.blocks.getLast?.map OpenBlock.indent

@[simp]
theorem base?_attach (outline : Outline) (node : Node) :
    (outline.attach node).base? = outline.base? := by
  obtain ⟨top, _ | ⟨block, _ | ⟨parent, outer⟩⟩⟩ := outline <;> rfl

theorem base?_cons (top : Array Node) (block : OpenBlock) (outer : List OpenBlock) :
    Outline.base? ⟨top, block :: outer⟩ =
      some ((Outline.base? ⟨top, outer⟩).getD block.indent) := by
  rw [Outline.base?, Outline.base?, List.getLast?_cons]
  cases outer.getLast? <;> rfl

theorem base?_openBlock (outline : Outline) (indent : Nat) (head : Head) :
    (outline.openBlock indent head).base? = some (outline.base?.getD indent) := by
  rw [Outline.openBlock, base?_cons]

/-- Blocks are closed from the inside, so the base is what it was, or is closed itself. -/
theorem Closes.base?_eq {indent : Nat} {outline room : Outline}
    (closes : Closes indent outline room) :
    outline.base? = some (room.base?.getD indent) := by
  induction closes with
  | here same => rw [base?_cons, base?_attach, same]
  | up _ _ ih =>
      rw [base?_attach] at ih
      rw [base?_cons, ih, Option.getD_some]

theorem Enters.base?_getD {indent : Nat} {outline room : Outline}
    (enters : Enters indent outline room) :
    room.base?.getD indent = outline.base?.getD indent := by
  cases enters with
  | first => rfl
  | inside _ => rfl
  | beside _ closes => rw [closes.base?_eq, Option.getD_some]

/-- The indentation of the first line that is not blank. -/
def firstIndent? (lines : List Line) : Option Nat :=
  (lines.find? fun line => !line.isBlank).map Line.indent

theorem firstIndent?_cons (line : Line) (lines : List Line) : firstIndent? (line :: lines) =
    (if line.isBlank then none else some line.indent).or (firstIndent? lines) := by
  cases blank : line.isBlank <;> simp [firstIndent?, blank]

/-- The first line that is not blank sets the base, and no later line changes it. -/
theorem Takes.base?_eq {outline next : Outline} {line : Line} (takes : Takes outline line next) :
    next.base? = outline.base?.or (if line.isBlank then none else some line.indent) := by
  cases takes with
  | blank blank => rw [base?_attach, blank, if_pos rfl, Option.or_none]
  | kept nonblank keeps =>
      obtain ⟨top, _ | ⟨block, outer⟩⟩ := outline
      · simp [keeps_nil] at keeps
      · rw [base?_attach, base?_cons, Option.some_or]
  | opened nonblank _ enters _ =>
      rw [base?_openBlock, enters.base?_getD, nonblank, if_neg Bool.false_ne_true, Option.or_some]

theorem base?_of_addLines {outline final : Outline} {number : Nat} {lines : List Line}
    (run : outline.addLines number lines = .ok final) :
    final.base? = outline.base?.or (firstIndent? lines) := by
  induction lines generalizing outline number with
  | nil =>
      obtain rfl := Except.ok.inj run
      exact (Option.or_none).symm
  | cons line lines ih =>
      rw [Outline.addLines] at run
      split at run
      · contradiction
      · next next taken =>
        rw [ih run, (addLine_eq_ok_iff.mp taken).base?_eq, firstIndent?_cons, Option.or_assoc]

/-! ## A line of the base indentation -/

theorem base?_le {top : Array Node} {block : OpenBlock} {outer : List OpenBlock} {base : Nat}
    (ordered : Outline.Ordered ⟨top, block :: outer⟩)
    (h : Outline.base? ⟨top, block :: outer⟩ = some base) : base ≤ block.indent := by
  obtain ⟨last, found, rfl⟩ := Option.map_eq_some_iff.mp h
  rcases List.mem_cons.mp (List.mem_of_getLast? found) with rfl | inside
  · exact Nat.le_refl _
  · exact Nat.le_of_lt ((List.pairwise_cons.mp ordered).1 last inside).1

/-- Closing down to the base closes all blocks. -/
theorem closeTo_base {top : Array Node} {block : OpenBlock} {outer : List OpenBlock} {base : Nat}
    (ordered : Outline.Ordered ⟨top, block :: outer⟩)
    (h : Outline.base? ⟨top, block :: outer⟩ = some base) :
    Outline.closeTo base top block outer = some ⟨Outline.closeAll top block outer, []⟩ := by
  -- closing changes the next block by one child and leaves the base where it is
  induction outer generalizing block with
  | nil =>
      have same : block.indent = base := Option.some.inj h
      rw [Outline.closeTo, if_pos same]
      rfl
  | cons parent outer ih =>
      have further : Outline.base? ⟨top, parent.attach block.close :: outer⟩ = some base := by
        rw [base?_cons, base?_cons, Option.getD_some] at h
        rw [base?_cons]
        exact h
      have ordered' : Outline.Ordered ⟨top, parent.attach block.close :: outer⟩ :=
        (ordered.leave block.close).1
      have le : base ≤ (parent.attach block.close).indent := base?_le ordered' further
      rw [OpenBlock.attach_indent] at le
      have less : parent.indent < block.indent :=
        ((List.pairwise_cons.mp ordered).1 parent List.mem_cons_self).1
      rw [Outline.closeTo, if_pos (by omega), ih ordered' further]
      rfl

/-- A line of the base indentation is taken in as if all blocks had been closed before. -/
theorem addLine_base {outline : Outline} {line : Line} (ordered : outline.Ordered)
    (nonblank : line.isBlank = false) (h : outline.base? = some line.indent) (number : Nat) :
    outline.addLine number line =
      (Outline.empty.below outline.finish.children.toArray).addLine number line := by
  obtain ⟨top, _ | ⟨block, outer⟩⟩ := outline
  · cases h
  · have le : line.indent ≤ block.indent := base?_le ordered h
    have leaves : Outline.keeps ⟨top, block :: outer⟩ line.indent = false := by
      rw [← Bool.not_eq_true, keeps_cons]
      rintro ⟨-, deeper⟩
      omega
    have enters : Outline.enter ⟨top, block :: outer⟩ line.indent =
        some ⟨Outline.closeAll top block outer, []⟩ := by
      simp only [Outline.enter]
      rw [if_neg (Nat.not_lt.mpr le), closeTo_base ordered h]
    have closed : Outline.empty.below (Outline.finish ⟨top, block :: outer⟩).children.toArray =
        ⟨Outline.closeAll top block outer, []⟩ := by
      simp [Outline.empty, Outline.finish, Node.children]
    rw [closed, Outline.addLine, Outline.addLine, nonblank, leaves, enters, keeps_nil]
    rfl

/-! ## Joined lines -/

/-- The second lines can follow the first: the first are all blank, or the second start with a line
that is not blank and has the indentation of the first that is not blank before. -/
def Joins (first second : List Line) : Prop :=
  (∀ line ∈ first, line.isBlank = true) ∨
    ∃ line ∈ second.head?, line.isBlank = false ∧ firstIndent? first = some line.indent

theorem addLines_join {first second : List Line} {final : Outline} (joins : Joins first second)
    (run : Outline.empty.addLines 1 first = .ok final) :
    final.addLines (1 + first.length) second =
      moved final.finish.children.toArray first.length (Outline.empty.addLines 1 second) := by
  have base : final.base? = firstIndent? first := base?_of_addLines run
  rw [← addLines_below]
  rcases joins with blank | ⟨line, starts, nonblank, same⟩
  · -- no line has opened a block, so nothing is open
    have unset : final.base? = none := by
      simpa [base, firstIndent?] using blank
    obtain ⟨top, _ | ⟨block, outer⟩⟩ := final
    · simp [Outline.empty, Outline.finish, Node.children]
    · simp [base?_cons] at unset
  · obtain ⟨rest, rfl⟩ := List.head?_eq_some_iff.mp starts
    have ordered : final.Ordered := ordered_of_addLines ordered_empty run
    rw [Outline.addLines, Outline.addLines,
      addLine_base ordered nonblank (base.trans same)]

/-! ## Joined sources -/

section

variable {first second : String}

theorem sourceLines_append (ended : ∀ c ∈ first.toList.getLast?, c = '\n')
    (unmarked : second.toList.head? ≠ some byteOrderMark) :
    sourceLines (first ++ second) = sourceLines first ++ sourceLines second := by
  obtain ⟨whole, ended'⟩ := withoutByteOrderMark_append ended unmarked
  rw [sourceLines, String.toList_append, whole, lines_append ended', List.map_append, sourceLines,
    sourceLines, withoutByteOrderMark_eq_self unmarked]

/-- A source at fault stays so whatever follows, with the same fault. -/
theorem parse_append_of_error (ended : ∀ c ∈ first.toList.getLast?, c = '\n')
    (unmarked : second.toList.head? ≠ some byteOrderMark) {fault : ParseError}
    (h : parse first = .error fault) : parse (first ++ second) = .error fault := by
  rw [parse, sourceLines_append ended unmarked, addLines_append, run_of_parse_error h]
  rfl

/-- Behind a template, the second source is parsed as it would be by itself. -/
theorem parse_append_of_ok (ended : ∀ c ∈ first.toList.getLast?, c = '\n')
    (unmarked : second.toList.head? ≠ some byteOrderMark)
    (joins : Joins (sourceLines first) (sourceLines second)) {root : Node}
    (h : parse first = .ok root) :
    parse (first ++ second) =
      match parse second with
      | .error fault => .error (fault.shift (sourceLines first).length)
      | .ok root' => .ok (.container (root.children ++ root'.children)) := by
  obtain ⟨final, run, rfl⟩ := run_of_parse_ok h
  rw [parse, sourceLines_append ended unmarked, addLines_append, run]
  simp only [addLines_join joins run]
  rw [parse]
  cases Outline.empty.addLines 1 (sourceLines second) with
  | error fault => rfl
  | ok next => simp only [moved, Except.map, finish_below]

end

end Specimen.Template
