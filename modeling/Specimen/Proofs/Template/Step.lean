/-
# Specimen.Proofs.Template.Step — what one line does to the open blocks.

A line that is taken in without fault does one of three things: it is blank, it is kept as it is by
a verbatim block, or it opens a block once room has been made for it.  `Takes` lists them with all
their conditions, so that a statement about the reading of lines needs no look at the code: it has
three cases, and where room is made, two ways of closing.

`Ordered` is what every reading keeps: inner blocks are indented deeper than outer ones, and only
the innermost can be verbatim.
-/
import Specimen.Template.Outline

namespace Specimen.Template

/-! ## Making room -/

@[simp]
theorem attach_nil (top : Array Node) (node : Node) :
    Outline.attach ⟨top, []⟩ node = ⟨top.push node, []⟩ := rfl

@[simp]
theorem attach_cons (top : Array Node) (block : OpenBlock) (outer : List OpenBlock) (node : Node) :
    Outline.attach ⟨top, block :: outer⟩ node = ⟨top, block.attach node :: outer⟩ := rfl

@[simp]
theorem OpenBlock.attach_indent (block : OpenBlock) (node : Node) :
    (block.attach node).indent = block.indent := rfl

@[simp]
theorem OpenBlock.attach_head (block : OpenBlock) (node : Node) :
    (block.attach node).head = block.head := rfl

/-- Closing blocks until one of the given indentation has been closed. -/
inductive Closes (indent : Nat) : Outline → Outline → Prop
  | here {top : Array Node} {block : OpenBlock} {outer : List OpenBlock} :
      block.indent = indent →
      Closes indent ⟨top, block :: outer⟩ (Outline.attach ⟨top, outer⟩ block.close)
  | up {top : Array Node} {block : OpenBlock} {outer : List OpenBlock} {room : Outline} :
      indent < block.indent → Closes indent (Outline.attach ⟨top, outer⟩ block.close) room →
      Closes indent ⟨top, block :: outer⟩ room

theorem closeTo_eq_some_iff {indent : Nat} {top : Array Node} {block : OpenBlock}
    {outer : List OpenBlock} {room : Outline} :
    Outline.closeTo indent top block outer = some room ↔
      Closes indent ⟨top, block :: outer⟩ room := by
  -- the search goes outwards, and the block it looks at has taken in all that it has closed
  induction outer generalizing block with
  | nil =>
      rw [Outline.closeTo]
      constructor
      · intro h
        split at h
        · next same =>
          obtain rfl := Option.some.inj h
          exact .here same
        · contradiction
      · intro h
        cases h with
        | here same => exact if_pos same
        | up _ above => cases above
  | cons parent outer ih =>
      rw [Outline.closeTo]
      constructor
      · intro h
        split at h
        · next deeper => exact .up deeper (ih.mp h)
        · split at h
          · next same =>
            obtain rfl := Option.some.inj h
            exact .here same
          · contradiction
      · intro h
        cases h with
        | here same => rw [if_neg (by omega), if_pos same]; rfl
        | up deeper above => rw [if_pos deeper]; exact ih.mpr above

/-- Making room for a block of the given indentation: at the top level if no block is open, inside
the innermost block if that one is indented less, and otherwise beside a block that is closed. -/
inductive Enters (indent : Nat) : Outline → Outline → Prop
  | first {top : Array Node} : Enters indent ⟨top, []⟩ ⟨top, []⟩
  | inside {top : Array Node} {block : OpenBlock} {outer : List OpenBlock} :
      block.indent < indent → Enters indent ⟨top, block :: outer⟩ ⟨top, block :: outer⟩
  | beside {top : Array Node} {block : OpenBlock} {outer : List OpenBlock} {room : Outline} :
      indent ≤ block.indent → Closes indent ⟨top, block :: outer⟩ room →
      Enters indent ⟨top, block :: outer⟩ room

theorem enter_eq_some_iff {outline room : Outline} {indent : Nat} :
    outline.enter indent = some room ↔ Enters indent outline room := by
  obtain ⟨top, blocks⟩ := outline
  cases blocks with
  | nil =>
      constructor
      · intro h
        obtain rfl := Option.some.inj h
        exact .first
      · intro h
        cases h
        rfl
  | cons block outer =>
      simp only [Outline.enter]
      constructor
      · intro h
        split at h
        · next deeper =>
          obtain rfl := Option.some.inj h
          exact .inside deeper
        · next shallow => exact .beside (Nat.le_of_not_lt shallow) (closeTo_eq_some_iff.mp h)
      · intro h
        cases h with
        | inside deeper => exact if_pos deeper
        | beside shallow closes =>
            rw [if_neg (Nat.not_lt.mpr shallow)]
            exact closeTo_eq_some_iff.mpr closes

/-! ## Taking in a line -/

/-- What a verbatim block makes of a line. -/
def Line.keptNode (line : Line) : Node :=
  if line.isBlank then .lineBreak
  else .block (.markup .text (String.ofList line.content)) [.lineBreak]

theorem keptNode_of_blank {line : Line} (blank : line.isBlank = true) :
    line.keptNode = .lineBreak := if_pos blank

theorem keeps_nil (top : Array Node) (indent : Nat) : Outline.keeps ⟨top, []⟩ indent = false := rfl

theorem keeps_cons {top : Array Node} {block : OpenBlock} {outer : List OpenBlock}
    {indent : Nat} : Outline.keeps ⟨top, block :: outer⟩ indent = true ↔
      block.head.isVerbatim = true ∧ block.indent < indent := by
  simp [Outline.keeps]

/-- Taking in one line without fault. -/
inductive Takes (outline : Outline) (line : Line) : Outline → Prop
  | blank : line.isBlank = true → Takes outline line (outline.attach line.keptNode)
  | kept : line.isBlank = false → outline.keeps line.indent = true →
      Takes outline line (outline.attach line.keptNode)
  | opened {room : Outline} {head : Head} :
      line.isBlank = false → outline.keeps line.indent = false →
      Enters line.indent outline room → Head.ofContent line.content = .ok head →
      Takes outline line (room.openBlock line.indent head)

theorem addLine_eq_ok_iff {outline next : Outline} {number : Nat} {line : Line} :
    outline.addLine number line = .ok next ↔ Takes outline line next := by
  constructor
  · intro h
    unfold Outline.addLine at h
    split at h
    · next blank =>
      obtain rfl := Except.ok.inj h
      have takes : Takes outline line _ := .blank blank
      simpa [Line.keptNode, blank] using takes
    · next nonblank =>
      rw [Bool.not_eq_true] at nonblank
      split at h
      · next keeps =>
        obtain rfl := Except.ok.inj h
        have takes : Takes outline line _ := .kept nonblank keeps
        simpa [Line.keptNode, nonblank] using takes
      · next leaves =>
        rw [Bool.not_eq_true] at leaves
        split at h
        · contradiction
        · next room enters =>
          split at h
          · contradiction
          · next head found =>
            obtain rfl := Except.ok.inj h
            exact .opened nonblank leaves (enter_eq_some_iff.mp enters) found
  · intro h
    cases h with
    | blank blank => simp [Outline.addLine, Line.keptNode, blank]
    | kept nonblank keeps => simp [Outline.addLine, Line.keptNode, nonblank, keeps]
    | opened nonblank leaves enters found =>
        simp [Outline.addLine, nonblank, leaves, enter_eq_some_iff.mpr enters, found]

/-- Refusing a line: it is out of place, or there is room for it but it gives no head. -/
inductive Refuses (outline : Outline) (number : Nat) (line : Line) : ParseError → Prop
  | outOfPlace : line.isBlank = false → outline.keeps line.indent = false →
      outline.enter line.indent = none → Refuses outline number line (.malformedIndentation number)
  | headless {room : Outline} {kind : CallKind} :
      line.isBlank = false → outline.keeps line.indent = false →
      outline.enter line.indent = some room → Head.ofContent line.content = .error kind →
      Refuses outline number line (.missingCode number kind)

theorem refuses_of_addLine {outline : Outline} {number : Nat} {line : Line} {fault : ParseError}
    (h : outline.addLine number line = .error fault) : Refuses outline number line fault := by
  unfold Outline.addLine at h
  split at h
  · contradiction
  · next nonblank =>
    rw [Bool.not_eq_true] at nonblank
    split at h
    · contradiction
    · next leaves =>
      rw [Bool.not_eq_true] at leaves
      split at h
      · next closed =>
        obtain rfl := Except.error.inj h
        exact .outOfPlace nonblank leaves closed
      · next room enters =>
        split at h
        · next kind missing =>
          obtain rfl := Except.error.inj h
          exact .headless nonblank leaves enters missing
        · contradiction

/-! ## The order of the open blocks -/

/-- Inner blocks are indented deeper than outer ones, and only the innermost can be verbatim. -/
def Outline.Ordered (outline : Outline) : Prop :=
  outline.blocks.Pairwise fun inner outer =>
    outer.indent < inner.indent ∧ outer.head.isVerbatim = false

theorem ordered_empty : Outline.empty.Ordered := List.Pairwise.nil

@[simp]
theorem ordered_attach {outline : Outline} {node : Node} :
    (outline.attach node).Ordered ↔ outline.Ordered := by
  obtain ⟨top, blocks⟩ := outline
  cases blocks <;> simp [Outline.Ordered]

theorem Outline.Ordered.tail {top : Array Node} {block : OpenBlock} {outer : List OpenBlock}
    (h : Outline.Ordered ⟨top, block :: outer⟩) : Outline.Ordered ⟨top, outer⟩ :=
  List.Pairwise.of_cons h

/-- Where a block of the given indentation may be opened: the innermost open block is indented less
and is not verbatim. -/
def Outline.HasRoom (outline : Outline) (indent : Nat) : Prop :=
  ∀ block ∈ outline.blocks.head?, block.indent < indent ∧ block.head.isVerbatim = false

theorem ordered_openBlock {outline : Outline} {indent : Nat} {head : Head}
    (h : outline.Ordered) (room : outline.HasRoom indent) :
    (outline.openBlock indent head).Ordered := by
  obtain ⟨top, blocks⟩ := outline
  refine List.Pairwise.cons ?_ h
  intro outer member
  cases blocks with
  | nil => cases member
  | cons block blocks =>
      have first := room block rfl
      rcases List.mem_cons.mp member with rfl | member
      · exact first
      · have second := (List.pairwise_cons.mp h).1 outer member
        exact ⟨Nat.lt_trans second.1 first.1, second.2⟩

/-- When a block is closed, there is room for another one of its indentation beside it. -/
theorem Outline.Ordered.leave {top : Array Node} {block : OpenBlock} {outer : List OpenBlock}
    (h : Outline.Ordered ⟨top, block :: outer⟩) (node : Node) :
    (Outline.attach ⟨top, outer⟩ node).Ordered ∧
      (Outline.attach ⟨top, outer⟩ node).HasRoom block.indent := by
  refine ⟨ordered_attach.mpr h.tail, ?_⟩
  cases outer with
  | nil => exact nofun
  | cons parent outer =>
      intro found eq
      obtain rfl := Option.some.inj eq
      exact (List.pairwise_cons.mp h).1 parent List.mem_cons_self

theorem Closes.ordered {indent : Nat} {outline room : Outline} (closes : Closes indent outline room)
    (h : outline.Ordered) : room.Ordered ∧ room.HasRoom indent := by
  induction closes with
  | here same => exact same ▸ h.leave _
  | up _ _ ih => exact ih (h.leave _).1

theorem Enters.ordered {indent : Nat} {outline room : Outline} (enters : Enters indent outline room)
    (h : outline.Ordered) (leaves : outline.keeps indent = false) :
    room.Ordered ∧ room.HasRoom indent := by
  cases enters with
  | first => exact ⟨h, nofun⟩
  | @inside top block outer deeper =>
      refine ⟨h, ?_⟩
      intro found eq
      obtain rfl := Option.some.inj eq
      refine ⟨deeper, ?_⟩
      simpa [Outline.keeps, deeper] using leaves
  | beside _ closes => exact closes.ordered h

/-- Taking in a line keeps the order. -/
theorem Takes.ordered {outline next : Outline} {line : Line} (takes : Takes outline line next)
    (h : outline.Ordered) : next.Ordered := by
  cases takes with
  | blank | kept => exact ordered_attach.mpr h
  | opened _ leaves enters _ =>
      obtain ⟨ordered, room⟩ := enters.ordered h leaves
      exact ordered_openBlock ordered room

/-! ## Runs of lines -/

/-- A run ends at the first line that is refused; otherwise the lines after it go on from where it
has led. -/
theorem addLines_append (outline : Outline) (number : Nat) (first second : List Line) :
    outline.addLines number (first ++ second) =
      match outline.addLines number first with
      | .error fault => .error fault
      | .ok next => next.addLines (number + first.length) second := by
  induction first generalizing outline number with
  | nil => rfl
  | cons line first ih =>
      rw [List.cons_append, Outline.addLines, Outline.addLines]
      cases outline.addLine number line with
      | error fault => rfl
      | ok next =>
          simp only [ih, List.length_cons]
          rw [Nat.add_assoc, Nat.add_comm 1]

theorem ordered_of_addLines {outline final : Outline} {number : Nat} {lines : List Line}
    (ordered : outline.Ordered) (run : outline.addLines number lines = .ok final) :
    final.Ordered := by
  induction lines generalizing outline number with
  | nil =>
      obtain rfl := Except.ok.inj run
      exact ordered
  | cons line lines ih =>
      rw [Outline.addLines] at run
      split at run
      · contradiction
      · next next taken => exact ih ((addLine_eq_ok_iff.mp taken).ordered ordered) run

theorem run_of_parse_ok {source : String} {root : Node} (h : parse source = .ok root) :
    ∃ final, Outline.empty.addLines 1 (sourceLines source) = .ok final ∧ final.finish = root := by
  rw [parse] at h
  cases run : Outline.empty.addLines 1 (sourceLines source) with
  | error fault => simp [run, Except.map] at h
  | ok final => exact ⟨final, rfl, by simpa [run, Except.map] using h⟩

theorem run_of_parse_error {source : String} {fault : ParseError}
    (h : parse source = .error fault) :
    Outline.empty.addLines 1 (sourceLines source) = .error fault := by
  rw [parse] at h
  cases run : Outline.empty.addLines 1 (sourceLines source) with
  | error fault' => simpa [run, Except.map] using h
  | ok final => simp [run, Except.map] at h

end Specimen.Template
