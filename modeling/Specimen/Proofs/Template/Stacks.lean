/-
# Specimen.Proofs.Template.Stacks — the stacks of a reading keep in step.

An outline cannot lose a child or come apart; stacks could.  `Follows` says that stacks hold the
open nodes of an outline, and that no operation on them came to nothing.  It is kept by each
operation, also in the middle of a line, when the stacks of nodes and of indentations differ in
height.  Between two lines `Mirrors` holds, where the indentations and the mark of the verbatim
block are those of the outline too.  What is known of outlines then carries over:
`sound_of_readLines` has the invariant of the stacks and says that every operation has an effect.
-/
import Specimen.Proofs.Template.Concatenation
import Specimen.Proofs.Template.Reading
import Specimen.Template.Stacks

namespace Specimen.Template

/-! ## What the operations find -/

/-- Whether an operation does anything: a child finds a place, and of the open nodes one is left
when another is closed. -/
def Operation.Effective : Operation → Prop
  | push child frames => ∃ node ∈ frames.head?, (node.push? child).isSome = true
  | close frames => 1 < frames.length

/-- Whether the node is text, a comment or an embedded engine. -/
def Node.isVerbatim : Node → Bool
  | .block head _ => head.isVerbatim
  | _ => false

/-- What holds of the stacks between two lines, when these lines have been read. -/
structure Stacks.Sound (state : Stacks) (lines : List Line) : Prop where
  /-- The outermost open node is a container. -/
  root : ∃ nodes, state.frames.getLast? = some (.container nodes)
  /-- All others are blocks, and each has the break of its own line. -/
  blocks : ∀ node ∈ state.frames.dropLast, ∃ head nodes, node = .block head (.lineBreak :: nodes)
  height : state.frames.length = state.indents.length + 1
  /-- Inner blocks are indented deeper. -/
  deeper : state.indents.Pairwise fun inner outer => outer < inner
  /-- The outermost indentation is that of the first line that is not blank. -/
  base : state.indents.getLast? = firstIndent? lines
  /-- The mark is the indentation of the innermost node, which is verbatim. -/
  marked : ∀ level, state.verbatim = some level →
    state.indents.head? = some level ∧ ∃ node ∈ state.frames.head?, node.isVerbatim = true
  /-- An innermost node that is verbatim is marked. -/
  marks : ∀ node ∈ state.frames.head?, node.isVerbatim = true → state.verbatim.isSome = true

/-! ## The open nodes of an outline -/

namespace Outline

/-- The open nodes, innermost first. -/
def frames (outline : Outline) : List Node :=
  outline.blocks.map OpenBlock.close ++ [.container outline.top.toList]

/-- The indentations of the open blocks, innermost first. -/
def indents (outline : Outline) : List Nat := outline.blocks.map OpenBlock.indent

/-- The indentation of the innermost open block, if it is verbatim. -/
def verbatim? (outline : Outline) : Option Nat :=
  (outline.blocks.head?.filter (·.head.isVerbatim)).map OpenBlock.indent

theorem verbatim?_cons (top : Array Node) (block : OpenBlock) (outer : List OpenBlock) :
    verbatim? ⟨top, block :: outer⟩ = if block.head.isVerbatim then some block.indent else none := by
  cases verbatim : block.head.isVerbatim <;> simp [verbatim?, Option.filter, verbatim]

theorem length_blocks_attach (outline : Outline) (node : Node) :
    (outline.attach node).blocks.length = outline.blocks.length := by
  obtain ⟨top, _ | ⟨block, outer⟩⟩ := outline <;> rfl

@[simp]
theorem indents_attach (outline : Outline) (node : Node) :
    (outline.attach node).indents = outline.indents := by
  obtain ⟨top, _ | ⟨block, outer⟩⟩ := outline <;> rfl

@[simp]
theorem verbatim?_attach (outline : Outline) (node : Node) :
    (outline.attach node).verbatim? = outline.verbatim? := by
  obtain ⟨top, _ | ⟨block, outer⟩⟩ := outline
  · rfl
  · rw [attach_cons, verbatim?_cons, verbatim?_cons]
    rfl

/-- A verbatim block keeps the lines that are deeper than the mark. -/
theorem any_verbatim? (outline : Outline) (indent : Nat) :
    outline.verbatim?.any (· < indent) = outline.keeps indent := by
  obtain ⟨top, _ | ⟨block, outer⟩⟩ := outline
  · rfl
  · rw [verbatim?_cons]
    cases verbatim : block.head.isVerbatim <;> simp [keeps, verbatim]

end Outline

/-! ## Stacks that follow an outline -/

/-- The stacks hold the open nodes of an outline, the blocks with the breaks of their own lines in
front, and every operation on them had an effect. -/
structure Follows (state : Stacks) (outline : Outline) : Prop where
  frames : state.frames = outline.frames
  started : ∀ block ∈ outline.blocks, block.children.toList.head? = some .lineBreak
  effective : ∀ operation ∈ state.history, operation.Effective

/-- The stacks are those of an outline that is between two lines. -/
structure Mirrors (state : Stacks) (outline : Outline) : Prop extends Follows state outline where
  indents : state.indents = outline.indents
  verbatim : state.verbatim = outline.verbatim?

theorem mirrors_start : Mirrors {} Outline.empty where
  frames := rfl
  started := List.forall_mem_nil _
  effective := List.forall_mem_nil _
  indents := rfl
  verbatim := rfl

namespace Follows

variable {state : Stacks} {outline : Outline} {top : Array Node} {block : OpenBlock}
  {outer : List OpenBlock}

/-- Only the open nodes and the history matter. -/
theorem of_eq {other : Stacks} (follows : Follows state outline)
    (frames : other.frames = state.frames) (history : other.history = state.history) :
    Follows other outline :=
  ⟨frames.trans follows.frames, follows.started, history ▸ follows.effective⟩

theorem started_attach (started : ∀ block ∈ outline.blocks,
      block.children.toList.head? = some .lineBreak) (node : Node) :
    ∀ block ∈ (outline.attach node).blocks, block.children.toList.head? = some .lineBreak := by
  obtain ⟨top, _ | ⟨block, outer⟩⟩ := outline
  · exact started
  · obtain ⟨first, others⟩ := List.forall_mem_cons.mp started
    refine List.forall_mem_cons.mpr ⟨?_, others⟩
    simp [OpenBlock.attach, first]

/-- A child goes where the outline puts it. -/
theorem push (follows : Follows state outline) (node : Node) :
    Follows (state.push node) (outline.attach node) where
  frames := by
    obtain ⟨top, _ | ⟨block, outer⟩⟩ := outline <;>
      simp [Stacks.push, follows.frames, Outline.frames, Node.push?, OpenBlock.close,
        OpenBlock.attach]
  started := started_attach follows.started node
  effective := by
    refine List.forall_mem_cons.mpr ⟨?_, follows.effective⟩
    rw [Operation.Effective, follows.frames]
    obtain ⟨top, _ | ⟨block, outer⟩⟩ := outline <;>
      simp [Outline.frames, OpenBlock.close, Node.push?]

/-- A block is closed into the next one outwards, or into the root. -/
theorem close (follows : Follows state ⟨top, block :: outer⟩) :
    Follows state.close (Outline.attach ⟨top, outer⟩ block.close) := by
  obtain ⟨parent, rest, others⟩ : ∃ parent rest, Outline.frames ⟨top, outer⟩ = parent :: rest :=
    List.exists_cons_of_ne_nil (by simp [Outline.frames])
  have frames : state.frames = block.close :: parent :: rest := by
    rw [follows.frames, ← others]
    rfl
  let popped : Stacks :=
    { state with
      frames := parent :: rest
      history := .close (block.close :: parent :: rest) :: state.history }
  have closed : state.close = popped.push block.close := by
    simp only [Stacks.close, frames]
    rfl
  have follows' : Follows popped ⟨top, outer⟩ := by
    refine ⟨others.symm, fun inner member => ?_, ?_⟩
    · exact follows.started inner (List.mem_cons_of_mem _ member)
    · refine List.forall_mem_cons.mpr ⟨?_, follows.effective⟩
      simp [Operation.Effective]
  rw [closed]
  exact follows'.push block.close

/-- A node is opened as its block is. -/
theorem openFrame (follows : Follows state outline) (indent : Nat) (head : Head) :
    Follows (state.openFrame (.block head [])) (outline.openBlock indent head) where
  frames := by
    simp [Stacks.openFrame, Stacks.push, Node.push?, follows.frames, Outline.frames,
      Outline.openBlock, OpenBlock.close]
  started := List.forall_mem_cons.mpr ⟨rfl, follows.started⟩
  effective := by
    refine List.forall_mem_cons.mpr ⟨?_, follows.effective⟩
    simp [Operation.Effective, Node.push?]

/-- Unwinding stops at the block at which the search for an indentation stops. -/
theorem unwind (follows : Follows state ⟨top, block :: outer⟩)
    (indents : state.indents = Outline.indents ⟨top, block :: outer⟩) (indent : Nat) :
    ∃ last rest, Follows (state.unwind indent) ⟨top, last :: rest⟩ ∧
      (state.unwind indent).indents = Outline.indents ⟨top, last :: rest⟩ ∧
      (state.unwind indent).verbatim = state.verbatim ∧
      Outline.closeTo indent top block outer =
        if last.indent = indent then some (Outline.attach ⟨top, rest⟩ last.close) else none := by
  -- the innermost block changes whenever one is closed into it, so it is not fixed
  induction outer generalizing block state with
  | nil =>
      have stays : state.unwind indent = state := by
        rw [Stacks.unwind, if_neg (by simp [indents, Outline.indents])]
      rw [stays]
      exact ⟨block, [], follows, indents, rfl, rfl⟩
  | cons parent outer ih =>
      by_cases deeper : indent < block.indent
      · let popped : Stacks := { state with indents := state.indents.drop 1 }
        have goes : state.unwind indent = popped.close.unwind indent := by
          rw [Stacks.unwind, if_pos (by simp [indents, Outline.indents, deeper])]
        have follows' : Follows popped.close ⟨top, parent.attach block.close :: outer⟩ :=
          (follows.of_eq rfl rfl : Follows popped _).close
        have indents' : popped.close.indents =
            Outline.indents ⟨top, parent.attach block.close :: outer⟩ := by
          simp [popped, indents, Outline.indents]
        obtain ⟨last, rest, followsLast, indentsLast, verbatimLast, found⟩ := ih follows' indents'
        rw [goes, Outline.closeTo, if_pos deeper]
        exact ⟨last, rest, followsLast, indentsLast, verbatimLast.trans (by simp [popped]), found⟩
      · have stays : state.unwind indent = state := by
          rw [Stacks.unwind, if_neg (by simp [indents, Outline.indents, deeper])]
        rw [stays, Outline.closeTo, if_neg deeper]
        exact ⟨block, parent :: outer, follows, indents, rfl, rfl⟩

end Follows

/-- Room is made on the stacks for an indentation, or the fault is found, as in an outline. -/
inductive MakesRoom (state : Stacks) (number indent : Nat) : Option Outline → Prop
  | none : state.enter number indent = .error (.malformedIndentation number) →
      MakesRoom state number indent none
  | some {next : Stacks} {room : Outline} : state.enter number indent = .ok next →
      Follows next room → next.indents = indent :: room.indents →
      next.verbatim = state.verbatim → MakesRoom state number indent (some room)

theorem Follows.makesRoom {state : Stacks} {outline : Outline} (follows : Follows state outline)
    (indents : state.indents = outline.indents) (number indent : Nat) :
    MakesRoom state number indent (outline.enter indent) := by
  let deepened : Stacks := { state with indents := indent :: state.indents }
  have deepens : Follows deepened outline := follows.of_eq rfl rfl
  have indents' : deepened.indents = indent :: outline.indents := congrArg (indent :: ·) indents
  obtain ⟨top, _ | ⟨block, outer⟩⟩ := outline
  · have last : state.indents.head? = none := by rw [indents]; rfl
    have entered : state.enter number indent = .ok deepened := by rw [Stacks.enter, last]
    exact .some entered deepens indents' rfl
  · have last : state.indents.head? = some block.indent := by rw [indents]; rfl
    simp only [Outline.enter]
    by_cases deeper : block.indent < indent
    · have entered : state.enter number indent = .ok deepened := by
        simp only [Stacks.enter, last, if_pos deeper, deepened]
      rw [if_pos deeper]
      exact .some entered deepens indents' rfl
    · obtain ⟨final, rest, followsRoom, indentsRoom, verbatimRoom, found⟩ :=
        follows.unwind indents indent
      have innermost : (state.unwind indent).indents.head? = some final.indent := by
        rw [indentsRoom]
        rfl
      rw [if_neg deeper, found]
      by_cases level : final.indent = indent
      · have entered : state.enter number indent = .ok (state.unwind indent).close := by
          simp only [Stacks.enter, last, if_neg deeper, innermost, level, if_true]
        rw [if_pos level]
        refine .some entered followsRoom.close ?_ ?_
        · rw [Stacks.indents_close, indentsRoom, Outline.indents_attach, ← level]
          rfl
        · rw [Stacks.verbatim_close, verbatimRoom]
      · rw [if_neg level]
        refine .none ?_
        simp [Stacks.enter, last, deeper, innermost, level]

/-! ## Lines -/

namespace Mirrors

variable {state : Stacks} {outline : Outline}

theorem push (mirrors : Mirrors state outline) (node : Node) :
    Mirrors (state.push node) (outline.attach node) where
  toFollows := mirrors.toFollows.push node
  indents := by
    rw [Outline.indents_attach]
    exact mirrors.indents
  verbatim := by
    rw [Outline.verbatim?_attach]
    exact mirrors.verbatim

/-- A node is opened where its indentation is on the stack already.  From here on the two stacks
are of one height again, and the mark is set if the node is verbatim. -/
theorem openFrame {indent : Nat} (follows : Follows state outline)
    (indents : state.indents = indent :: outline.indents) (unmarked : state.verbatim = none)
    (head : Head) :
    let verbatim := if head.isVerbatim then some indent else state.verbatim
    Mirrors ({ state with verbatim }.openFrame (.block head []))
      (outline.openBlock indent head) := by
  intro verbatim
  have follows' : Follows { state with verbatim } outline := follows.of_eq rfl rfl
  refine ⟨follows'.openFrame indent head, indents, ?_⟩
  show verbatim = _
  rw [Outline.openBlock, Outline.verbatim?_cons, ← unmarked]

end Mirrors

/-- Both readings go on, with stacks and outline in step, or both find the same fault. -/
inductive Alike : Except ParseError Stacks → Except ParseError Outline → Prop
  | error (fault : ParseError) : Alike (.error fault) (.error fault)
  | ok {state : Stacks} {outline : Outline} :
      Mirrors state outline → Alike (.ok state) (.ok outline)

theorem Alike.exists_outline {state : Stacks} {added : Except ParseError Outline}
    (alike : Alike (.ok state) added) :
    ∃ outline, added = .ok outline ∧ Mirrors state outline := by
  cases alike with
  | ok mirrors => exact ⟨_, rfl, mirrors⟩

theorem Alike.exists_stacks {outline : Outline} {read : Except ParseError Stacks}
    (alike : Alike read (.ok outline)) :
    ∃ state, read = .ok state ∧ Mirrors state outline := by
  cases alike with
  | ok mirrors => exact ⟨_, rfl, mirrors⟩

/-- One line more keeps the stacks and the outline in step. -/
theorem Mirrors.readLine {state : Stacks} {outline : Outline} (mirrors : Mirrors state outline)
    (number : Nat) (line : Line) :
    Alike (state.readLine number line) (outline.addLine number line) := by
  unfold Stacks.readLine Outline.addLine
  rw [mirrors.verbatim, Outline.any_verbatim?]
  by_cases blank : line.isBlank
  · rw [if_pos blank, if_pos blank]
    exact .ok (mirrors.push .lineBreak)
  by_cases keeps : outline.keeps line.indent
  · rw [if_neg blank, if_neg blank, if_pos keeps, if_pos keeps]
    exact .ok (mirrors.push _)
  rw [if_neg blank, if_neg blank, if_neg keeps, if_neg keeps]
  -- the mark goes before room is made, and until the line is taken in, only `Follows` holds
  have unmarked : Follows { state with verbatim := none } outline :=
    mirrors.toFollows.of_eq rfl rfl
  have makesRoom := unmarked.makesRoom mirrors.indents number line.indent
  generalize outline.enter line.indent = entered at makesRoom ⊢
  cases makesRoom with
  | none fault =>
      rw [fault]
      exact .error _
  | some room follows indents verbatim =>
      rw [room]
      cases found : Head.ofContent line.content with
      | error kind => exact .error _
      | ok head => exact .ok (Mirrors.openFrame follows indents verbatim head)

theorem Mirrors.readLines {state : Stacks} {outline : Outline} (mirrors : Mirrors state outline)
    (number : Nat) (lines : List Line) :
    Alike (state.readLines number lines) (outline.addLines number lines) := by
  induction lines generalizing state outline number with
  | nil => exact .ok mirrors
  | cons line lines ih =>
      have alike := mirrors.readLine number line
      rw [Stacks.readLines, Outline.addLines]
      generalize state.readLine number line = read at alike ⊢
      generalize outline.addLine number line = added at alike ⊢
      cases alike with
      | error fault => exact .error fault
      | ok mirrors' => exact ih mirrors' (number + 1)

/-! ## The end of the source -/

/-- Closing every node but one leaves the root, which has taken in all that was open. -/
theorem Follows.closeAll {state : Stacks} {outline : Outline} (follows : Follows state outline) :
    ∃ top, Follows state.closeAll ⟨top, []⟩ ∧ outline.finish = .container top.toList := by
  obtain ⟨top, blocks⟩ := outline
  -- what is closed changes the next block, so the induction is on how many are open
  generalize open' : blocks.length = count
  induction count generalizing state top blocks with
  | zero =>
      obtain rfl := List.length_eq_zero_iff.mp open'
      refine ⟨top, ?_, rfl⟩
      rw [Stacks.closeAll, if_neg (by simp [follows.frames, Outline.frames])]
      exact follows
  | succ count ih =>
      obtain ⟨block, outer, rfl⟩ := List.exists_cons_of_length_eq_add_one open'
      have closed := follows.close
      have shorter : (Outline.attach ⟨top, outer⟩ block.close).blocks.length = count := by
        rw [Outline.length_blocks_attach]
        exact Nat.succ.inj open'
      obtain ⟨top', follows', finished⟩ := ih _ _ closed shorter
      refine ⟨top', ?_, ?_⟩
      · rw [Stacks.closeAll, if_pos (by simp [follows.frames, Outline.frames])]
        exact follows'
      · rw [finish_leave]
        exact finished

/-- The tree is the root with what was open in it. -/
theorem Follows.finish {state : Stacks} {outline : Outline} (follows : Follows state outline) :
    state.closeAll.frames = [outline.finish] ∧ state.finish = outline.finish := by
  obtain ⟨top, closed, finished⟩ := follows.closeAll
  have only : state.closeAll.frames = [outline.finish] := by
    rw [closed.frames, finished]
    rfl
  refine ⟨only, ?_⟩
  rw [Stacks.finish, only]
  rfl

/-- What stands at the top level stays there, in front of what the lines add. -/
theorem top_of_addLines {outline final : Outline} {number : Nat} {lines : List Line}
    (run : outline.addLines number lines = .ok final) :
    ∃ more, final.finish = .container (outline.top.toList ++ more) := by
  have below : outline = Outline.below outline.top ⟨#[], outline.blocks⟩ := by simp
  have moves := addLines_below outline.top 0 ⟨#[], outline.blocks⟩ number lines
  rw [← below, Nat.add_zero, run] at moves
  cases inner : Outline.addLines ⟨#[], outline.blocks⟩ number lines with
  | error fault => simp [inner, moved] at moves
  | ok added =>
      rw [inner] at moves
      obtain rfl := Except.ok.inj moves
      exact ⟨added.finish.children, finish_below _ _⟩

/-! ## The invariant -/

/-- Stacks that mirror an outline are sound, since the blocks of an outline are in order. -/
theorem Mirrors.sound {state : Stacks} {outline : Outline} {lines : List Line}
    (mirrors : Mirrors state outline) (ordered : outline.Ordered)
    (base : outline.base? = firstIndent? lines) : state.Sound lines where
  root := ⟨outline.top.toList, by simp [mirrors.frames, Outline.frames]⟩
  blocks := by
    intro node member
    rw [mirrors.frames, Outline.frames, List.dropLast_concat, List.mem_map] at member
    obtain ⟨block, member, rfl⟩ := member
    obtain ⟨nodes, children⟩ := List.head?_eq_some_iff.mp (mirrors.started block member)
    exact ⟨block.head, nodes, by rw [OpenBlock.close, children]⟩
  height := by simp [mirrors.frames, mirrors.indents, Outline.frames, Outline.indents]
  deeper := by
    rw [mirrors.indents, Outline.indents, List.pairwise_map]
    exact ordered.imp And.left
  base := by
    rw [mirrors.indents, ← base, Outline.indents, List.getLast?_map]
    rfl
  -- the mark is defined from the innermost block, and a container is never verbatim
  marked := by
    intro level mark
    rw [mirrors.verbatim] at mark
    rw [mirrors.indents, mirrors.frames]
    obtain ⟨top, _ | ⟨block, outer⟩⟩ := outline
    · contradiction
    · rw [Outline.verbatim?_cons, Option.ite_none_right_eq_some] at mark
      exact ⟨mark.2, block.close, rfl, mark.1⟩
  marks := by
    intro node member verbatim
    rw [mirrors.frames] at member
    rw [mirrors.verbatim]
    obtain ⟨top, _ | ⟨block, outer⟩⟩ := outline
    · obtain rfl := Option.some.inj member
      contradiction
    · obtain rfl := Option.some.inj member
      have verbatim' : block.head.isVerbatim = true := verbatim
      rw [Outline.verbatim?_cons, if_pos verbatim']
      rfl

theorem alike_readLines (number : Nat) (lines : List Line) :
    Alike (({} : Stacks).readLines number lines) (Outline.empty.addLines number lines) :=
  mirrors_start.readLines number lines

/-- The two readings give the same tree or the same fault. -/
theorem map_finish_readLines (number : Nat) (lines : List Line) :
    (({} : Stacks).readLines number lines).map Stacks.finish =
      (Outline.empty.addLines number lines).map Outline.finish := by
  have alike := alike_readLines number lines
  generalize ({} : Stacks).readLines number lines = read at alike ⊢
  generalize Outline.empty.addLines number lines = added at alike ⊢
  cases alike with
  | error fault => rfl
  | ok mirrors => exact congrArg Except.ok mirrors.toFollows.finish.2

/-- Templates can be read on plain stacks. -/
theorem parse_eq_readLines (source : String) :
    parse source = (({} : Stacks).readLines 1 (sourceLines source)).map Stacks.finish :=
  (map_finish_readLines 1 (sourceLines source)).symm

/-- When lines have been read without a fault, the stacks were sound wherever one stops between two
lines, and the root had the first children of what is the tree in the end.  Every operation had an
effect, those that close what is open at the end included: no child was dropped and no node stayed
open that was to be closed.  What is left at last is the root alone, and it is the tree of the
outline. -/
theorem sound_of_readLines {number : Nat} {first second : List Line} {final : Stacks}
    (run : ({} : Stacks).readLines number (first ++ second) = .ok final) :
    (∃ between, ({} : Stacks).readLines number first = .ok between ∧ between.Sound first ∧
      ∃ nodes more, between.frames.getLast? = some (.container nodes) ∧
        final.finish = .container (nodes ++ more)) ∧
      (∀ operation ∈ final.closeAll.history, operation.Effective) ∧
      final.closeAll.frames = [final.finish] ∧
      (Outline.empty.addLines number (first ++ second)).map Outline.finish = .ok final.finish := by
  have alike := alike_readLines number (first ++ second)
  have same := map_finish_readLines number (first ++ second)
  rw [run] at alike same
  obtain ⟨outline, added, mirrors⟩ := alike.exists_outline
  obtain ⟨top, closed, finished⟩ := mirrors.toFollows.closeAll
  obtain ⟨only, finish_eq⟩ := mirrors.toFollows.finish
  refine ⟨?_, closed.effective, finish_eq ▸ only, same.symm⟩
  rw [addLines_append] at added
  split at added
  · contradiction
  · next halfway reached =>
    have alike' := alike_readLines number first
    rw [reached] at alike'
    obtain ⟨between, read, mirrors'⟩ := alike'.exists_stacks
    obtain ⟨more, extended⟩ := top_of_addLines added
    refine ⟨between, read, mirrors'.sound ?_ ?_, halfway.top.toList, more, ?_, ?_⟩
    · exact ordered_of_addLines ordered_empty reached
    · exact base?_of_addLines reached
    · simp [mirrors'.frames, Outline.frames]
    · rw [finish_eq, extended]

/-- Three open blocks, the innermost of them text, and then a line that closes them all. -/
theorem sound_of_readLines_stairs :
    let before : List Line := [⟨2, "ul".toList⟩, ⟨4, "li".toList⟩, ⟨0, []⟩, ⟨6, "| x".toList⟩]
    let after : List Line := [⟨8, "y".toList⟩, ⟨2, "p".toList⟩]
    ∃ between final, ({} : Stacks).readLines 1 before = .ok between ∧
      (between.indents, between.verbatim) = ([6, 4, 2], some 6) ∧ between.Sound before ∧
      ({} : Stacks).readLines 1 (before ++ after) = .ok final ∧ final.indents = [2] ∧
      (∀ operation ∈ final.closeAll.history, operation.Effective) ∧
      final.closeAll.frames = [final.finish] := by
  intro before after
  have first : (({} : Stacks).readLines 1 before).map (fun state => (state.indents, state.verbatim))
      = .ok ([6, 4, 2], some 6) := by cbv
  have whole : (({} : Stacks).readLines 1 (before ++ after)).map Stacks.indents = .ok [2] := by cbv
  cases run : ({} : Stacks).readLines 1 (before ++ after) with
  | error fault => simp [run, Except.map] at whole
  | ok final =>
      obtain ⟨⟨between, read, sound, -⟩, effective, only, -⟩ := sound_of_readLines run
      rw [run] at whole
      rw [read] at first
      exact ⟨between, final, read, Except.ok.inj first, sound, rfl, Except.ok.inj whole, effective,
        only⟩

end Specimen.Template
