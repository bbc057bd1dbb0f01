/-
# Specimen.Proofs.Template.Grammar — templates as a grammar of lines.

The reading of a template goes line by line and keeps a stack of open blocks.  The grammar below
says what it amounts to without a stack: a run of lines is a sequence of siblings, each a line with
the deeper lines below it.  Blank lines stand between siblings only before the first of them; later
ones lie inside the block that was opened last.

Lines at fault are outside the grammar; which fault is reported is not its concern.  That the
grammar says the same as the reading is proved elsewhere; here are the facts that need no reading,
above all that every line leaves exactly one line break.
-/
import Specimen.Proofs.Template.Step

namespace Specimen.Template

open Text

/-! ## The grammar -/

/-- Every line that is not blank is indented deeper. -/
def Deeper (indent : Nat) (lines : List Line) : Prop :=
  ∀ line ∈ lines, line.isBlank = false → indent < line.indent

/-- The line opens a block with this head.  If a sibling has fixed the indentation, the line has
it. -/
structure Opens (level : Option Nat) (line : Line) (head : Head) : Prop where
  nonblank : line.isBlank = false
  atLevel : ∀ indent ∈ level, line.indent = indent
  head_eq : Head.ofContent line.content = .ok head

/-- The lines are a sequence of siblings and make these nodes.  The level is the indentation of the
siblings; it is open until the first of them has been read, and only that long do blank lines count
as siblings. -/
inductive Reads : Option Nat → List Line → List Node → Prop
  | nil {level : Option Nat} : Reads level [] []
  | blank {line : Line} {lines : List Line} {nodes : List Node} :
      line.isBlank = true → Reads none lines nodes →
      Reads none (line :: lines) (.lineBreak :: nodes)
  | block {level : Option Nat} {line : Line} {head : Head} {body rest : List Line}
      {nodes siblings : List Node} :
      Opens level line head → Deeper line.indent body →
      (head.isVerbatim = true → nodes = body.map Line.keptNode) →
      (head.isVerbatim = false → Reads none body nodes) →
      Reads (some line.indent) rest siblings →
      Reads level (line :: (body ++ rest)) (.block head (.lineBreak :: nodes) :: siblings)

/-- The lines are the body, or the rest of the body, of a block with this head. -/
def Fills (head : Head) (level : Option Nat) (body : List Line) (nodes : List Node) : Prop :=
  (head.isVerbatim = true → nodes = body.map Line.keptNode) ∧
    (head.isVerbatim = false → Reads level body nodes)

theorem fills_nil (head : Head) (level : Option Nat) : Fills head level [] [] :=
  ⟨fun _ => rfl, fun _ => .nil⟩

theorem Fills.of_reads {head : Head} {level : Option Nat} {body : List Line} {nodes : List Node}
    (interpreted : head.isVerbatim = false) (reads : Reads level body nodes) :
    Fills head level body nodes :=
  ⟨fun verbatim => by simp [interpreted] at verbatim, fun _ => reads⟩

theorem Fills.nodes_eq_nil {head : Head} {level : Option Nat} {nodes : List Node}
    (h : Fills head level [] nodes) : nodes = [] := by
  cases kind : head.isVerbatim with
  | true => exact h.1 kind
  | false =>
      cases h.2 kind
      rfl

/-- A blank line, or any line of a verbatim block, is one more node in front. -/
theorem fills_cons_iff {head : Head} {line : Line} {body : List Line} {result : List Node}
    (plain : line.isBlank = true ∨ head.isVerbatim = true) :
    Fills head none (line :: body) result ↔
      ∃ nodes, result = line.keptNode :: nodes ∧ Fills head none body nodes := by
  cases kind : head.isVerbatim with
  | true =>
      constructor
      · intro h
        exact ⟨_, h.1 kind, fun _ => rfl, by simp [kind]⟩
      · rintro ⟨nodes, rfl, h⟩
        exact ⟨fun _ => by rw [h.1 kind]; rfl, by simp [kind]⟩
  | false =>
      have blank : line.isBlank = true := plain.resolve_right (by simp [kind])
      rw [keptNode_of_blank blank]
      constructor
      · intro h
        cases h.2 kind with
        | blank _ reads => exact ⟨_, rfl, by simp [kind], fun _ => reads⟩
        | block opens => simp [opens.nonblank] at blank
      · rintro ⟨nodes, rfl, h⟩
        exact ⟨by simp [kind], fun _ => .blank blank (h.2 kind)⟩

theorem Reads.of_fills {level : Option Nat} {line : Line} {head : Head} {body rest : List Line}
    {nodes siblings : List Node} (opens : Opens level line head) (deeper : Deeper line.indent body)
    (fills : Fills head none body nodes) (more : Reads (some line.indent) rest siblings) :
    Reads level (line :: (body ++ rest)) (.block head (.lineBreak :: nodes) :: siblings) :=
  .block opens deeper fills.1 fills.2 more

theorem Deeper.cons {indent : Nat} {line : Line} {lines : List Line}
    (first : line.isBlank = false → indent < line.indent) (others : Deeper indent lines) :
    Deeper indent (line :: lines) := by
  intro other member
  rcases List.mem_cons.mp member with rfl | member
  · exact first
  · exact others other member

theorem Deeper.append {indent : Nat} {a b : List Line} (ha : Deeper indent a)
    (hb : Deeper indent b) : Deeper indent (a ++ b) := by
  intro line member
  rcases List.mem_append.mp member with member | member
  · exact ha line member
  · exact hb line member

theorem Deeper.of_subset {indent : Nat} {a b : List Line} (h : Deeper indent b) (sub : a ⊆ b) :
    Deeper indent a :=
  fun line member => h line (sub member)

theorem Deeper.mono {indent indent' : Nat} {lines : List Line} (le : indent ≤ indent')
    (h : Deeper indent' lines) : Deeper indent lines :=
  fun line member nonblank => Nat.lt_of_le_of_lt le (h line member nonblank)

/-- Once the level is fixed, the next line is not blank and has it. -/
theorem Reads.head_atLevel {indent : Nat} {line : Line} {lines : List Line} {nodes : List Node}
    (h : Reads (some indent) (line :: lines) nodes) :
    line.isBlank = false ∧ line.indent = indent := by
  cases h with
  | block opens => exact ⟨opens.nonblank, opens.atLevel indent rfl⟩

/-! ## Counting lines -/

theorem lineBreaks_keptNode (line : Line) : line.keptNode.lineBreaks = 1 := by
  unfold Line.keptNode
  split <;> simp [Node.lineBreaks, Node.lineBreaksIn]

theorem lineBreaksIn_map_keptNode (lines : List Line) :
    Node.lineBreaksIn (lines.map Line.keptNode) = lines.length := by
  induction lines with
  | nil => rfl
  | cons line lines ih =>
      rw [List.map_cons, Node.lineBreaksIn, lineBreaks_keptNode, ih, List.length_cons]
      omega

/-- Every line leaves exactly one line break. -/
theorem Reads.lineBreaksIn {level : Option Nat} {lines : List Line} {nodes : List Node}
    (h : Reads level lines nodes) : Node.lineBreaksIn nodes = lines.length := by
  induction h with
  | nil => rfl
  | blank _ _ ih =>
      rw [Node.lineBreaksIn, Node.lineBreaks, ih, List.length_cons]
      omega
  | @block _ line head body rest nodes siblings _ _ kept _ _ ihNested ihMore =>
      have inside : Node.lineBreaksIn nodes = body.length := by
        cases kind : head.isVerbatim with
        | true => rw [kept kind, lineBreaksIn_map_keptNode]
        | false => exact ihNested kind
      simp only [Node.lineBreaksIn, Node.lineBreaks, inside, ihMore, List.length_cons,
        List.length_append]
      omega

theorem Fills.lineBreaksIn {head : Head} {level : Option Nat} {body : List Line}
    {nodes : List Node} (h : Fills head level body nodes) :
    Node.lineBreaksIn nodes = body.length := by
  cases kind : head.isVerbatim with
  | true => rw [h.1 kind, lineBreaksIn_map_keptNode]
  | false => exact (h.2 kind).lineBreaksIn

/-- A block has one line break for its own line and one for each line of its body. -/
theorem Fills.lineBreaksIn_cons {head : Head} {level : Option Nat} {body : List Line}
    {nodes : List Node} (h : Fills head level body nodes) :
    Node.lineBreaksIn (.lineBreak :: nodes) = body.length + 1 := by
  rw [Node.lineBreaksIn, Node.lineBreaks, h.lineBreaksIn, Nat.add_comm]

end Specimen.Template
