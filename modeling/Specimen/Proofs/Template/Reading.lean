/-
# Specimen.Proofs.Template.Reading — the reading of lines follows the grammar.

`parse_eq_ok_iff` is the main result: a source parses exactly if its lines are derived by the
grammar, and the derivation gives the tree.  The proof needs one notion between the two sides,
`Completes`, which says what the lines still to come make of the blocks that are open: the
innermost block takes the lines up to the first that leaves it, is closed, and its parent goes on
with the rest.  One line more or less keeps this relation, in both directions.
-/
import Specimen.Proofs.Template.Grammar

namespace Specimen.Template

/-! ## Completing the open blocks -/

/-- The block with some more children. -/
def OpenBlock.extend (block : OpenBlock) (nodes : List Node) : OpenBlock :=
  { block with children := block.children ++ nodes }

@[simp]
theorem OpenBlock.extend_nil (block : OpenBlock) : block.extend [] = block := by
  simp [OpenBlock.extend]

@[simp]
theorem OpenBlock.extend_attach (block : OpenBlock) (node : Node) (nodes : List Node) :
    (block.attach node).extend nodes = block.extend (node :: nodes) := by
  simp [OpenBlock.extend, OpenBlock.attach]

/-- A block that has just been opened, with all its children. -/
theorem close_extend_mk (indent : Nat) (head : Head) (nodes : List Node) :
    (OpenBlock.extend ⟨indent, head, #[.lineBreak]⟩ nodes).close =
      .block head (.lineBreak :: nodes) := by
  simp [OpenBlock.extend, OpenBlock.close]

/-- The lines still to come, together with the open blocks, make these nodes at the top level.  The
level is the one on which the innermost block goes on. -/
inductive Completes : Option Nat → Outline → List Line → List Node → Prop
  | top {level : Option Nat} {top : Array Node} {lines : List Line} {nodes : List Node} :
      Reads level lines nodes → Completes level ⟨top, []⟩ lines (top.toList ++ nodes)
  | close {level : Option Nat} {top : Array Node} {block : OpenBlock} {outer : List OpenBlock}
      {own rest : List Line} {nodes result : List Node} :
      Deeper block.indent own → Fills block.head level own nodes →
      Completes (some block.indent) (Outline.attach ⟨top, outer⟩ (block.extend nodes).close) rest
        result →
      Completes level ⟨top, block :: outer⟩ (own ++ rest) result

/-- A block that takes no further line. -/
theorem Completes.leave {level : Option Nat} {top : Array Node} {block : OpenBlock}
    {outer : List OpenBlock} {lines : List Line} {result : List Node}
    (h : Completes (some block.indent) (Outline.attach ⟨top, outer⟩ block.close) lines result) :
    Completes level ⟨top, block :: outer⟩ lines result := by
  show Completes level ⟨top, block :: outer⟩ ([] ++ lines) result
  refine .close nofun (fills_nil _ _) ?_
  rwa [OpenBlock.extend_nil]

/-! ## From a run to a derivation -/

/-- A line that is blank or kept extends the innermost block. -/
theorem Completes.keptLine {outline : Outline} {line : Line} {lines : List Line}
    {result : List Node} (h : Completes none (outline.attach line.keptNode) lines result)
    (plain : line.isBlank = true ∨ outline.keeps line.indent = true) :
    Completes none outline (line :: lines) result := by
  obtain ⟨top, blocks⟩ := outline
  cases blocks with
  | nil =>
      have blank : line.isBlank = true := plain.resolve_right (by simp [keeps_nil])
      rw [keptNode_of_blank blank] at h
      cases h with
      | top reads =>
          rw [Array.toList_push, List.append_assoc]
          exact .top (.blank blank reads)
  | cons block outer =>
      rw [keeps_cons] at plain
      cases h with
      | @close _ _ _ _ own rest nodes _ deeper fills more =>
          rw [OpenBlock.extend_attach] at more
          have deeper' : Deeper block.indent (line :: own) :=
            deeper.cons fun nonblank => (plain.resolve_left (by simp [nonblank])).2
          have fills' : Fills block.head none (line :: own) (line.keptNode :: nodes) :=
            (fills_cons_iff (plain.imp_right And.left)).mpr ⟨nodes, rfl, fills⟩
          exact .close deeper' fills' more

/-- A line that opens a block where there is room for it. -/
theorem Completes.openLine {level : Option Nat} {outline : Outline} {line : Line} {head : Head}
    {lines : List Line} {result : List Node}
    (h : Completes none (outline.openBlock line.indent head) lines result)
    (opens : Opens level line head) (room : outline.HasRoom line.indent) :
    Completes level outline (line :: lines) result := by
  obtain ⟨top, blocks⟩ := outline
  cases h with
  | @close _ _ _ _ body rest nodes _ deeper fills more =>
      rw [close_extend_mk] at more
      cases blocks with
      | nil =>
          cases more with
          | top siblings =>
              rw [Array.toList_push, List.append_assoc]
              exact .top (Reads.of_fills opens deeper fills siblings)
      | cons block outer =>
          obtain ⟨indented, interpreted⟩ := room block rfl
          cases more with
          | @close _ _ _ _ own rest' nodes' _ deeper' fills' more' =>
              rw [OpenBlock.extend_attach] at more'
              have siblings : Reads (some line.indent) own nodes' := fills'.2 interpreted
              have body' : Deeper block.indent (line :: (body ++ own)) :=
                Deeper.cons (fun _ => indented)
                  ((deeper.mono (Nat.le_of_lt indented)).append deeper')
              have reads := Reads.of_fills opens deeper fills siblings
              rw [← List.append_assoc]
              exact .close body' (.of_reads interpreted reads) more'

/-- A line that opens a block after others have been closed for it. -/
theorem Completes.closeLine {indent : Nat} {outline room : Outline} {lines : List Line}
    {result : List Node} (closes : Closes indent outline room)
    (h : Completes (some indent) room lines result) (level : Option Nat) :
    Completes level outline lines result := by
  induction closes generalizing level with
  | here same =>
      rw [← same] at h
      exact h.leave
  | up _ _ ih => exact (ih h _).leave

/-- What a line does to the open blocks is undone by the lines still to come. -/
theorem Takes.completes {outline next : Outline} {line : Line} {lines : List Line}
    {result : List Node} (takes : Takes outline line next) (ordered : outline.Ordered)
    (h : Completes none next lines result) : Completes none outline (line :: lines) result := by
  cases takes with
  | blank blank => exact h.keptLine (.inl blank)
  | kept _ keeps => exact h.keptLine (.inr keeps)
  | opened nonblank leaves enters found =>
      obtain ⟨-, room⟩ := enters.ordered ordered leaves
      cases enters with
      | first => exact h.openLine ⟨nonblank, nofun, found⟩ room
      | inside _ => exact h.openLine ⟨nonblank, nofun, found⟩ room
      | beside _ closes =>
          have opens : Opens (some line.indent) line _ :=
            ⟨nonblank, fun _ eq => Option.some.inj eq, found⟩
          exact (h.openLine opens room).closeLine closes none

/-! ## The end of the source -/

/-- Closing the innermost block first makes no difference in the end. -/
theorem finish_leave (top : Array Node) (block : OpenBlock) (outer : List OpenBlock) :
    Outline.finish ⟨top, block :: outer⟩ =
      (Outline.attach ⟨top, outer⟩ block.close).finish := by
  cases outer <;> rfl

theorem completes_leave_nil_iff {level : Option Nat} {top : Array Node} {block : OpenBlock}
    {outer : List OpenBlock} {result : List Node} :
    Completes level ⟨top, block :: outer⟩ [] result ↔
      Completes (some block.indent) (Outline.attach ⟨top, outer⟩ block.close) [] result := by
  refine ⟨fun h => ?_, .leave⟩
  generalize ended : ([] : List Line) = lines at h
  cases h with
  | @close _ _ _ _ own rest nodes _ _ fills more =>
      obtain ⟨rfl, rfl⟩ := List.append_eq_nil_iff.mp ended.symm
      obtain rfl := fills.nodes_eq_nil
      simpa using more

theorem completes_top_nil_iff {level : Option Nat} {top : Array Node} {result : List Node} :
    Completes level ⟨top, []⟩ [] result ↔ Outline.finish ⟨top, []⟩ = .container result := by
  constructor
  · rintro ⟨⟨⟩⟩
    simp [Outline.finish]
  · intro h
    obtain rfl := Node.container.inj h
    have completes : Completes level ⟨top, []⟩ [] (top.toList ++ []) := .top .nil
    rwa [List.append_nil] at completes

/-- Without any further line, the open blocks are completed by closing them all. -/
theorem completes_nil_iff {level : Option Nat} {outline : Outline} {result : List Node} :
    Completes level outline [] result ↔ outline.finish = .container result := by
  obtain ⟨top, blocks⟩ := outline
  cases blocks with
  | nil => exact completes_top_nil_iff
  | cons block outer =>
      induction outer generalizing block level with
      | nil =>
          rw [completes_leave_nil_iff, finish_leave]
          exact completes_top_nil_iff
      | cons parent outer ih =>
          rw [completes_leave_nil_iff, finish_leave]
          exact ih (parent.attach block.close)

/-- A run without fault is a derivation. -/
theorem completes_of_addLines {outline final : Outline} {number : Nat} {lines : List Line}
    (ordered : outline.Ordered) (h : outline.addLines number lines = .ok final) :
    ∃ nodes, Completes none outline lines nodes ∧ final.finish = .container nodes := by
  induction lines generalizing outline number with
  | nil =>
      obtain rfl := Except.ok.inj h
      obtain ⟨nodes, finished⟩ : ∃ nodes, outline.finish = .container nodes := by
        unfold Outline.finish
        split <;> exact ⟨_, rfl⟩
      exact ⟨nodes, completes_nil_iff.mpr finished, finished⟩
  | cons line lines ih =>
      rw [Outline.addLines] at h
      split at h
      · contradiction
      · next next taken =>
        have takes := addLine_eq_ok_iff.mp taken
        obtain ⟨nodes, completes, finished⟩ := ih (takes.ordered ordered) h
        exact ⟨nodes, takes.completes ordered completes, finished⟩

/-! ## From a derivation to a run -/

/-- The next line belongs to the innermost block, or that block takes no further line. -/
theorem Completes.own_or_leave {level : Option Nat} {top : Array Node} {block : OpenBlock}
    {outer : List OpenBlock} {line : Line} {lines : List Line} {result : List Node}
    (h : Completes level ⟨top, block :: outer⟩ (line :: lines) result) :
    (∃ own rest nodes, lines = own ++ rest ∧ Deeper block.indent (line :: own) ∧
        Fills block.head level (line :: own) nodes ∧
        Completes (some block.indent) (Outline.attach ⟨top, outer⟩ (block.extend nodes).close)
          rest result) ∨
      Completes (some block.indent) (Outline.attach ⟨top, outer⟩ block.close) (line :: lines)
        result := by
  generalize shape : line :: lines = all at h
  cases h with
  | @close _ _ _ _ own rest nodes _ deeper fills more =>
      cases own with
      | nil =>
          obtain rfl := fills.nodes_eq_nil
          rw [OpenBlock.extend_nil] at more
          exact .inr more
      | cons first own =>
          obtain ⟨rfl, rfl⟩ := List.cons.inj shape
          exact .inl ⟨own, rest, nodes, rfl, deeper, fills, more⟩

/-- Once the level is fixed, the next line either is a sibling on it, or it leaves the block and
further ones until it is a sibling of the last. -/
theorem Completes.next_line {indent : Nat} {outline : Outline} {line : Line} {lines : List Line}
    {result : List Node} (h : Completes (some indent) outline (line :: lines) result)
    (ordered : outline.Ordered) (room : outline.HasRoom indent) :
    line.isBlank = false ∧ (line.indent = indent ∨ line.indent < indent ∧
      ∃ room, Closes line.indent outline room ∧
        Completes (some line.indent) room (line :: lines) result) := by
  generalize shape : line :: lines = all at h
  generalize fixed : some indent = level at h
  induction h generalizing indent with
  | top reads =>
      subst shape fixed
      exact ⟨reads.head_atLevel.1, .inl reads.head_atLevel.2⟩
  | @close level top block outer own rest nodes result deeper fills more ih =>
      obtain ⟨less, interpreted⟩ := room block rfl
      cases own with
      | cons first own =>
          obtain ⟨rfl, -⟩ := List.cons.inj shape
          subst fixed
          have sibling := (fills.2 interpreted).head_atLevel
          exact ⟨sibling.1, .inl sibling.2⟩
      | nil =>
          obtain rfl := fills.nodes_eq_nil
          rw [OpenBlock.extend_nil] at more ih
          obtain ⟨ordered', room'⟩ := ordered.leave block.close
          obtain ⟨nonblank, same | ⟨shallow, room, closes, further⟩⟩ :=
            ih ordered' room' shape rfl
          · refine ⟨nonblank, .inr ⟨same ▸ less, _, .here same.symm, ?_⟩⟩
            subst shape
            exact same ▸ more
          · exact ⟨nonblank, .inr ⟨Nat.lt_trans shallow less, room, .up shallow closes, further⟩⟩

theorem Completes.next_line_le {indent : Nat} {outline : Outline} {line : Line}
    {lines : List Line} {result : List Node}
    (h : Completes (some indent) outline (line :: lines) result)
    (ordered : outline.Ordered) (room : outline.HasRoom indent) :
    line.isBlank = false ∧ line.indent ≤ indent := by
  obtain ⟨nonblank, same | ⟨shallow, -⟩⟩ := h.next_line ordered room
  · exact ⟨nonblank, Nat.le_of_eq same⟩
  · exact ⟨nonblank, Nat.le_of_lt shallow⟩

/-- The next line is taken in by the innermost block as it is. -/
theorem Completes.of_keptLine {outline : Outline} {line : Line} {lines : List Line}
    {result : List Node} (h : Completes none outline (line :: lines) result)
    (ordered : outline.Ordered) (plain : line.isBlank = true ∨ outline.keeps line.indent = true) :
    Completes none (outline.attach line.keptNode) lines result := by
  obtain ⟨top, blocks⟩ := outline
  cases blocks with
  | nil =>
      have blank : line.isBlank = true := plain.resolve_right (by simp [keeps_nil])
      rw [keptNode_of_blank blank]
      cases h with
      | top reads =>
          cases reads with
          | @blank _ _ nodes _ reads =>
              rw [attach_nil, List.append_cons, ← Array.toList_push]
              exact .top reads
          | block opens => simp [opens.nonblank] at blank
  | cons block outer =>
      rw [keeps_cons] at plain
      rcases h.own_or_leave with ⟨own, rest, nodes, rfl, deeper, fills, more⟩ | more
      · obtain ⟨nodes', rfl, fills'⟩ := (fills_cons_iff (plain.imp_right And.left)).mp fills
        rw [← OpenBlock.extend_attach] at more
        exact .close (deeper.of_subset (List.subset_cons_self _ _)) fills' more
      · -- a line that leaves the block is indented at most as deep, and would not be kept
        obtain ⟨ordered', room⟩ := ordered.leave block.close
        obtain ⟨nonblank, le⟩ := more.next_line_le ordered' room
        have keeps := plain.resolve_left (by simp [nonblank])
        exact absurd keeps.2 (Nat.not_lt.mpr le)

/-- The next line opens a block where there is room for it. -/
theorem Completes.of_openLine {level : Option Nat} {outline : Outline} {line : Line}
    {lines : List Line} {result : List Node} (h : Completes level outline (line :: lines) result)
    (ordered : outline.Ordered) (room : outline.HasRoom line.indent)
    (nonblank : line.isBlank = false) :
    ∃ head, Head.ofContent line.content = .ok head ∧
      Completes none (outline.openBlock line.indent head) lines result := by
  obtain ⟨top, blocks⟩ := outline
  cases blocks with
  | nil =>
      cases h with
      | top reads =>
          cases reads with
          | blank blank => simp [blank] at nonblank
          | @block _ _ head body rest nodes siblings opens deeper kept nested more =>
              refine ⟨head, opens.head_eq, .close deeper ⟨kept, nested⟩ ?_⟩
              rw [close_extend_mk, attach_nil, List.append_cons, ← Array.toList_push]
              exact .top more
  | cons block outer =>
      obtain ⟨indented, interpreted⟩ := room block rfl
      rcases h.own_or_leave with ⟨own, rest, nodes, rfl, deeper, fills, more⟩ | more
      · generalize shape : line :: own = all at fills
        cases fills.2 interpreted with
        | nil => contradiction
        | blank blank =>
            obtain ⟨rfl, -⟩ := List.cons.inj shape
            simp [blank] at nonblank
        | @block _ _ head body siblings nodes' nodes'' opens deeper' kept nested more' =>
            obtain ⟨rfl, rfl⟩ := List.cons.inj shape
            refine ⟨head, opens.head_eq, ?_⟩
            -- the own lines of the block are now the body of the new one and its siblings
            rw [List.append_assoc]
            refine .close deeper' ⟨kept, nested⟩ ?_
            rw [close_extend_mk, attach_cons]
            have deeper'' : Deeper block.indent siblings := fun other member =>
              deeper other (List.mem_cons_of_mem _ (List.mem_append_right _ member))
            refine .close deeper'' (.of_reads interpreted more') ?_
            rwa [OpenBlock.extend_attach]
      · obtain ⟨ordered', room'⟩ := ordered.leave block.close
        exact absurd indented (Nat.not_lt.mpr (more.next_line_le ordered' room').2)

/-- The next line, neither blank nor kept, has room in one of the open blocks. -/
theorem Completes.enters {outline : Outline} {line : Line} {lines : List Line}
    {result : List Node} (h : Completes none outline (line :: lines) result)
    (ordered : outline.Ordered) (nonblank : line.isBlank = false) :
    ∃ room level, Enters line.indent outline room ∧
      Completes level room (line :: lines) result := by
  obtain ⟨top, blocks⟩ := outline
  cases blocks with
  | nil => exact ⟨_, none, .first, h⟩
  | cons block outer =>
      by_cases deep : block.indent < line.indent
      · exact ⟨_, none, .inside deep, h⟩
      have shallow : line.indent ≤ block.indent := Nat.le_of_not_lt deep
      rcases h.own_or_leave with ⟨own, rest, nodes, rfl, deeper, -⟩ | more
      · exact absurd (deeper line List.mem_cons_self nonblank) deep
      · obtain ⟨ordered', hasRoom⟩ := ordered.leave block.close
        obtain ⟨-, same | ⟨less, room, closes, further⟩⟩ := more.next_line ordered' hasRoom
        · exact ⟨_, _, .beside shallow (.here same.symm), more⟩
        · exact ⟨room, _, .beside shallow (.up less closes), further⟩

/-- A derivation tells what the next line does. -/
theorem Completes.takes {outline : Outline} {line : Line} {lines : List Line}
    {result : List Node} (h : Completes none outline (line :: lines) result)
    (ordered : outline.Ordered) :
    ∃ next, Takes outline line next ∧ Completes none next lines result := by
  cases blank : line.isBlank with
  | true => exact ⟨_, .blank blank, h.of_keptLine ordered (.inl blank)⟩
  | false =>
  cases keeps : outline.keeps line.indent with
  | true => exact ⟨_, .kept blank keeps, h.of_keptLine ordered (.inr keeps)⟩
  | false =>
      obtain ⟨room, level, enters, further⟩ := h.enters ordered blank
      obtain ⟨ordered', hasRoom⟩ := enters.ordered ordered keeps
      obtain ⟨head, found, opened⟩ := further.of_openLine ordered' hasRoom blank
      exact ⟨_, .opened blank keeps enters found, opened⟩

/-- A derivation is a run without fault. -/
theorem addLines_of_completes {outline : Outline} {lines : List Line} {nodes : List Node}
    (number : Nat) (ordered : outline.Ordered) (h : Completes none outline lines nodes) :
    ∃ final, outline.addLines number lines = .ok final ∧ final.finish = .container nodes := by
  induction lines generalizing outline number with
  | nil => exact ⟨outline, rfl, completes_nil_iff.mp h⟩
  | cons line lines ih =>
      obtain ⟨next, takes, further⟩ := h.takes ordered
      obtain ⟨final, run, finished⟩ := ih (number + 1) (takes.ordered ordered) further
      refine ⟨final, ?_, finished⟩
      rw [Outline.addLines, addLine_eq_ok_iff.mpr takes]
      exact run

/-! ## Templates -/

/-- A source is a template exactly if the grammar derives its lines, and the derivation gives the
tree. -/
theorem parse_eq_ok_iff {source : String} {root : Node} :
    parse source = .ok root ↔
      ∃ nodes, Reads none (sourceLines source) nodes ∧ root = .container nodes := by
  constructor
  · intro h
    obtain ⟨final, run, rfl⟩ := run_of_parse_ok h
    obtain ⟨nodes, completes, finished⟩ := completes_of_addLines ordered_empty run
    cases completes with
    | top reads => exact ⟨_, reads, finished⟩
  · rintro ⟨nodes, reads, rfl⟩
    obtain ⟨final, run, finished⟩ := addLines_of_completes 1 ordered_empty (.top reads)
    simp [parse, run, Except.map, finished]

/-- A small template: two calls, and text that takes in a line like a call and a blank line. -/
def sample : String :=
  "h1 Buttons\n\n- kss_block '1.1' do\n  button\n    | Go\n      - now\n\n" ++
    "= kss_block '1.2' do\n  a\n"

/-- The tree of the small template. -/
def sampleTree : Node := .container
  [.block (.markup .tag "h1 Buttons") [.lineBreak, .lineBreak],
    .block (.call .control "kss_block '1.1' do") [.lineBreak,
      .block (.markup .tag "button") [.lineBreak,
        .block (.markup .text "Go") [.lineBreak,
          .block (.markup .text "- now") [.lineBreak], .lineBreak]]],
    .block (.call .output "kss_block '1.2' do") [.lineBreak,
      .block (.markup .tag "a") [.lineBreak]]]

theorem parse_sample : parse sample = .ok sampleTree := by rfl

end Specimen.Template
