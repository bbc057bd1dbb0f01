/-
# Specimen.Proofs.Template.Placement — the tree of a template is the prescribed one.

A derivation of the grammar treats the lines of a block apart from those around it.  `Inside` says
what the lines before it must be like for a run of siblings to have a given parent; with that, the
parents that the indentation prescribes can be read off the derivation, one rule at a time.
`Placed` says that a run of lines has its nodes where they are prescribed, and is what one rule
after the other builds up.

`parse_prescribed` is the result: a template has the tree that its lines prescribe.
-/
import Specimen.Proofs.Template.Nesting
import Specimen.Proofs.Template.Reading

namespace Specimen.Template

variable {lines : List Line}

/-! ## Where a run of siblings stands -/

/-- A run of siblings with the parent `p` can begin at line `k`.  The parent is open there, and of
the lines after it only siblings, and what is below them, come before. -/
structure Inside (lines : List Line) (p level : Option Nat) (k : Nat) : Prop where
  parent : ∀ q ∈ p, q < k ∧ isStructural lines q = true ∧ (lineAt lines q).opensVerbatim = false
  siblings : ∀ s < k, isStructural lines s = true → (∀ q ∈ p, q < s) →
    ∃ indent ∈ level, indent ≤ (lineAt lines s).indent

variable {p level : Option Nat} {k : Nat}

theorem Inside.structural (inside : Inside lines p level k)
    (nonblank : (lineAt lines k).isBlank = false)
    (atLevel : ∀ indent ∈ level, (lineAt lines k).indent = indent) :
    isStructural lines k = true := by
  refine isStructural_iff.mpr ⟨nonblank, ?_⟩
  intro v lt swallows
  by_cases after : ∀ q ∈ p, q < v
  · -- a sibling swallows only lines that are deeper than the level
    obtain ⟨indent, fixed, le⟩ := inside.siblings v lt swallows.1 after
    have deeper := swallows.2.2 k (Nat.le_refl k) lt nonblank
    rw [atLevel indent fixed] at deeper
    omega
  · -- what was open before the parent would have swallowed the parent
    obtain ⟨q, isParent, le⟩ : ∃ q ∈ p, v ≤ q := by simpa using after
    obtain ⟨ltq, structural, interpreted⟩ := inside.parent q isParent
    rcases Nat.lt_or_eq_of_le le with lt | rfl
    · have swallowed := not_isStructural_of_swallows lt (swallows.of_le (Nat.le_of_lt ltq))
      simp [swallowed] at structural
    · simp [swallows.2.1] at interpreted

theorem Inside.parent?_eq (inside : Inside lines p level k)
    (structural : isStructural lines k = true)
    (atLevel : ∀ indent ∈ level, (lineAt lines k).indent = indent)
    (under : ∀ q ∈ p, (lineAt lines q).indent < (lineAt lines k).indent) :
    parent? lines k = p := by
  have siblings : ∀ s < k, (∀ q ∈ p, q < s) → isStructural lines s = true →
      ¬ (lineAt lines s).indent < (lineAt lines k).indent := by
    intro s lt after other less
    obtain ⟨indent, fixed, le⟩ := inside.siblings s lt other after
    rw [atLevel indent fixed] at less
    omega
  rw [parent?_of_structural structural]
  cases p with
  | none =>
      refine lastBelow?_eq_none_iff.mpr fun s lt => ?_
      simpa using siblings s lt nofun
  | some q =>
      obtain ⟨lt, open', -⟩ := inside.parent q rfl
      refine lastBelow?_eq_some_iff.mpr ⟨lt, by simp [open', under q rfl], fun s gt lts => ?_⟩
      simpa using siblings s lts (fun q' eq => Option.some.inj eq ▸ gt)

theorem Inside.parent?_of_blank (inside : Inside lines p none k)
    (blank : (lineAt lines k).isBlank = true) : parent? lines k = p := by
  have none_after : ∀ s < k, (∀ q ∈ p, q < s) → isStructural lines s = false := by
    intro s lt after
    rw [← Bool.not_eq_true]
    intro other
    obtain ⟨indent, fixed, -⟩ := inside.siblings s lt other after
    cases fixed
  rw [Template.parent?_of_blank blank]
  cases p with
  | none => exact lastBelow?_eq_none_iff.mpr fun s lt => none_after s lt nofun
  | some q =>
      obtain ⟨lt, open', -⟩ := inside.parent q rfl
      exact lastBelow?_eq_some_iff.mpr
        ⟨lt, open', fun s gt lts => none_after s lts fun q' eq => Option.some.inj eq ▸ gt⟩

/-- Past a blank line the siblings can still begin. -/
theorem Inside.blank (inside : Inside lines p none k) (blank : (lineAt lines k).isBlank = true) :
    Inside lines p none (k + 1) := by
  refine ⟨?_, ?_⟩
  · intro q isParent
    obtain ⟨lt, rest⟩ := inside.parent q isParent
    exact ⟨Nat.lt_succ_of_lt lt, rest⟩
  · intro s lt other after
    rcases Nat.lt_succ_iff_lt_or_eq.mp lt with lt | rfl
    · exact inside.siblings s lt other after
    · simp [not_isStructural_of_blank blank] at other

/-- After the opening line of a block, its own children can begin. -/
theorem Inside.nested (structural : isStructural lines k = true)
    (interpreted : (lineAt lines k).opensVerbatim = false) :
    Inside lines (some k) none (k + 1) := by
  refine ⟨?_, ?_⟩
  · intro q eq
    obtain rfl := Option.some.inj eq
    exact ⟨Nat.lt_succ_self _, structural, interpreted⟩
  · intro s lt _ after
    have gt := after k rfl
    omega

/-- After a block with its body, the next sibling can begin. -/
theorem Inside.next (inside : Inside lines p level k)
    (atLevel : ∀ indent ∈ level, (lineAt lines k).indent = indent) {m : Nat} (le : k < m)
    (deeper : StaysDeeper lines k (m - 1)) :
    Inside lines p (some (lineAt lines k).indent) m := by
  refine ⟨?_, ?_⟩
  · intro q isParent
    obtain ⟨lt, rest⟩ := inside.parent q isParent
    exact ⟨Nat.lt_trans lt le, rest⟩
  · intro s lt other after
    refine ⟨_, rfl, ?_⟩
    rcases Nat.lt_trichotomy s k with before | rfl | inBody
    · obtain ⟨indent, fixed, le⟩ := inside.siblings s before other after
      rwa [atLevel indent fixed]
    · exact Nat.le_refl _
    · exact Nat.le_of_lt (deeper s (by omega) inBody (isStructural_iff.mp other).1)

/-! ## Runs of lines -/

/-- The run of lines stands in the text from line `k` on. -/
def Covers (lines : List Line) (k : Nat) (run : List Line) : Prop := run <+: lines.drop k

theorem Covers.split {a b : List Line} (covers : Covers lines k (a ++ b)) :
    Covers lines k a ∧ Covers lines (k + a.length) b := by
  obtain ⟨after, shape⟩ := covers
  refine ⟨⟨b ++ after, by rw [← shape, List.append_assoc]⟩, ⟨after, ?_⟩⟩
  rw [← List.drop_drop, ← shape, List.append_assoc, List.drop_left]

theorem Covers.tail {line : Line} {run : List Line} (covers : Covers lines k (line :: run)) :
    Covers lines (k + 1) run := by
  have cut : Covers lines k ([line] ++ run) := covers
  exact cut.split.2

theorem Covers.lineAt_eq {run : List Line} (covers : Covers lines k run) {j : Nat}
    (lt : j < run.length) : lineAt lines (k + j) = run[j] := by
  obtain ⟨after, shape⟩ := covers
  have found : (lines.drop k)[j]? = some run[j] := by
    rw [← shape, List.getElem?_append_left lt, List.getElem?_eq_getElem lt]
  rw [List.getElem?_drop] at found
  rw [lineAt, List.getD_eq_getElem?_getD, found, Option.getD_some]

theorem Covers.lineAt_first {line : Line} {run : List Line}
    (covers : Covers lines k (line :: run)) : lineAt lines k = line :=
  covers.lineAt_eq (Nat.zero_lt_succ run.length)

/-- A line of the run, found by its number. -/
theorem Covers.lineAt_mem {run : List Line} (covers : Covers lines k run) {i : Nat} (le : k ≤ i)
    (lt : i < k + run.length) : lineAt lines i ∈ run := by
  have bound : i - k < run.length := by omega
  have same : lineAt lines (k + (i - k)) = run[i - k] := covers.lineAt_eq bound
  rw [Nat.add_sub_cancel' le] at same
  rw [same]
  exact List.getElem_mem bound

/-- A body stays deeper than its block, up to its last line. -/
theorem Covers.staysDeeper {body : List Line} (covers : Covers lines (k + 1) body)
    (deeper : Deeper (lineAt lines k).indent body) {i : Nat} (lt : i < k + 1 + body.length) :
    StaysDeeper lines k i := by
  intro j le gt nonblank
  exact deeper _ (covers.lineAt_mem gt (Nat.lt_of_le_of_lt le lt)) nonblank

/-- Before line `m` blocks of this indentation end: the text does, or a structural line stands there
that is not indented deeper. -/
def EndsAt (lines : List Line) (indent m : Nat) : Prop :=
  m = lines.length ∨ (isStructural lines m = true ∧ (lineAt lines m).indent ≤ indent)

theorem EndsAt.mono {indent indent' m : Nat} (ends : EndsAt lines indent m)
    (le : indent ≤ indent') : EndsAt lines indent' m :=
  ends.imp_right fun stands => ⟨stands.1, Nat.le_trans stands.2 le⟩

/-- Past its end, nothing lies below a block. -/
theorem EndsAt.parent?_ne {m : Nat} (ends : EndsAt lines (lineAt lines k).indent m) (lt : k < m)
    {i : Nat} (le : m ≤ i) (bound : i < lines.length) : parent? lines i ≠ some k := by
  intro below
  rcases ends with rfl | ⟨structural, shallow⟩
  · omega
  · have deeper := (parent?_bounds below).2.2 m le lt structural
    omega

/-! ## The children in a run of lines -/

/-- The lines with a given parent, among the `n` lines from `k` on. -/
def childrenIn (lines : List Line) (p : Option Nat) (k n : Nat) : List Nat :=
  (List.range' k n).filter fun i => parent? lines i == p

theorem childrenIn_append (p : Option Nat) (k m n : Nat) :
    childrenIn lines p k (m + n) = childrenIn lines p k m ++ childrenIn lines p (k + m) n := by
  rw [childrenIn, ← List.range'_append_1, List.filter_append]
  rfl

theorem childrenIn_eq_nil {n : Nat}
    (h : ∀ i, k ≤ i → i < k + n → parent? lines i ≠ p) : childrenIn lines p k n = [] := by
  apply List.filter_eq_nil_iff.mpr
  intro i member
  obtain ⟨le, lt⟩ := List.mem_range'_1.mp member
  simpa using h i le lt

theorem childrenIn_eq_range' {n : Nat}
    (h : ∀ i, k ≤ i → i < k + n → parent? lines i = p) :
    childrenIn lines p k n = List.range' k n := by
  apply List.filter_eq_self.mpr
  intro i member
  obtain ⟨le, lt⟩ := List.mem_range'_1.mp member
  simpa using h i le lt

theorem childrenIn_one (here : parent? lines k = p) : childrenIn lines p k 1 = [k] := by
  apply childrenIn_eq_range'
  intro i le lt
  obtain rfl : i = k := by omega
  exact here

theorem childLines_eq (p : Option Nat) :
    childLines lines p = childrenIn lines p 0 lines.length := by
  rw [childLines, childrenIn, List.range_eq_range']

/-- The children of a block are found in its body. -/
theorem childLines_eq_childrenIn {n : Nat} (bound : k + 1 + n ≤ lines.length)
    (ends : EndsAt lines (lineAt lines k).indent (k + 1 + n)) :
    childLines lines (some k) = childrenIn lines (some k) (k + 1) n := by
  have before : childrenIn lines (some k) 0 (k + 1) = [] := by
    apply childrenIn_eq_nil
    intro i _ lt below
    have gt := (parent?_bounds below).1
    omega
  have after : childrenIn lines (some k) (k + 1 + n) (lines.length - (k + 1 + n)) = [] := by
    apply childrenIn_eq_nil
    intro i le lt
    exact ends.parent?_ne (by omega) le (by omega)
  have total : lines.length = (k + 1 + n) + (lines.length - (k + 1 + n)) := by omega
  calc childLines lines (some k)
      = childrenIn lines (some k) 0 lines.length := childLines_eq _
    _ = childrenIn lines (some k) 0 (k + 1 + n) := by
        rw [total, childrenIn_append, Nat.zero_add, after, List.append_nil]
    _ = childrenIn lines (some k) (k + 1) n := by
        rw [childrenIn_append, before, List.nil_append, Nat.zero_add]

/-! ## From a derivation to the prescribed tree -/

/-- The run of `n` lines from `k` on makes the nodes that are prescribed below `p`.  Every line of
it leaves its line break in one of them, in order, and every structural line has a head. -/
structure Placed (lines : List Line) (p : Option Nat) (k n : Nat) (nodes : List Node) : Prop where
  nodes_eq : nodes = (childrenIn lines p k n).map (node lines)
  markers_eq : (childrenIn lines p k n).flatMap (markers lines) = List.range' k n
  heads : ∀ i, k ≤ i → i < k + n → isStructural lines i = true →
    Head.ofContent (lineAt lines i).content = .ok (lineAt lines i).head

theorem Placed.nil : Placed lines p k 0 [] := ⟨rfl, rfl, fun i le lt => by omega⟩

theorem Placed.append {m n : Nat} {a b : List Node} (first : Placed lines p k m a)
    (second : Placed lines p (k + m) n b) : Placed lines p k (m + n) (a ++ b) := by
  refine ⟨?_, ?_, ?_⟩
  · rw [childrenIn_append, List.map_append, ← first.nodes_eq, ← second.nodes_eq]
  · rw [childrenIn_append, List.flatMap_append, first.markers_eq, second.markers_eq,
      List.range'_append_1]
  · intro i le lt structural
    by_cases early : i < k + m
    · exact first.heads i le early structural
    · exact second.heads i (Nat.le_of_not_lt early) (by omega) structural

/-- A line that is not structural has a node of its own and nothing below it. -/
theorem Placed.single (here : parent? lines k = p) (plain : isStructural lines k = false) :
    Placed lines p k 1 [(lineAt lines k).keptNode] := by
  refine ⟨?_, ?_, ?_⟩
  · rw [childrenIn_one here, List.map_singleton, node_of_not_structural plain]
  · rw [childrenIn_one here, List.flatMap_singleton, markers_of_not_structural plain]
    rfl
  · intro i le lt structural
    obtain rfl : i = k := by omega
    simp [plain] at structural

/-- A block, once its body is placed below it. -/
theorem Placed.block {n : Nat} {nodes : List Node} (here : parent? lines k = p)
    (structural : isStructural lines k = true)
    (opens : Head.ofContent (lineAt lines k).content = .ok (lineAt lines k).head)
    (deeper : StaysDeeper lines k (k + n)) (bound : k + 1 + n ≤ lines.length)
    (ends : EndsAt lines (lineAt lines k).indent (k + 1 + n))
    (body : Placed lines (some k) (k + 1) n nodes) :
    Placed lines p k (1 + n) [.block (lineAt lines k).head (.lineBreak :: nodes)] := by
  -- the lines of the body lie below the block, so none of them is a sibling of it
  have below : childrenIn lines p (k + 1) n = [] := by
    apply childrenIn_eq_nil
    intro i le lt above
    obtain ⟨q, found, leq⟩ := parent?_ge (by omega : k < i) structural
      (deeper i (by omega) (by omega))
    have earlier := (parent?_bounds (here.trans (above.symm.trans found))).1
    omega
  have children : childLines lines (some k) = childrenIn lines (some k) (k + 1) n :=
    childLines_eq_childrenIn bound ends
  have alone : childrenIn lines p k (1 + n) = [k] := by
    rw [childrenIn_append, childrenIn_one here, below, List.append_nil]
  refine ⟨?_, ?_, ?_⟩
  · rw [alone, List.map_singleton, node_of_structural structural, children, ← body.nodes_eq]
  · rw [alone, List.flatMap_singleton, Template.markers_eq, children, body.markers_eq,
      Nat.add_comm 1 n, List.range'_succ]
  · intro i le lt other
    rcases Nat.eq_or_lt_of_le le with rfl | gt
    · exact opens
    · exact body.heads i gt (by omega) other

/-- What a verbatim block keeps is placed below it. -/
theorem placed_verbatim {body : List Line} (structural : isStructural lines k = true)
    (verbatim : (lineAt lines k).opensVerbatim = true) (start : Nat) (le : k < start)
    (covers : Covers lines start body)
    (deeper : StaysDeeper lines k (start + body.length - 1)) :
    Placed lines (some k) start body.length (body.map Line.keptNode) := by
  induction body generalizing start with
  | nil => exact .nil
  | cons line body ih =>
      have swallows : Swallows lines k start :=
        ⟨structural, verbatim, deeper.of_le (by rw [List.length_cons]; omega)⟩
      have plain : isStructural lines start = false := not_isStructural_of_swallows le swallows
      have below : parent? lines start = some k := parent?_of_swallows le swallows
      have others : Placed lines (some k) (start + 1) body.length (body.map Line.keptNode) := by
        refine ih (start + 1) (Nat.lt_succ_of_lt le) covers.tail (deeper.of_le ?_)
        rw [List.length_cons]
        omega
      have first : Placed lines (some k) start 1 [line.keptNode] :=
        covers.lineAt_first ▸ Placed.single below plain
      rw [List.length_cons, Nat.add_comm]
      exact first.append others

theorem opensVerbatim_of_head {line : Line} {head : Head}
    (h : Head.ofContent line.content = .ok head) : line.opensVerbatim = head.isVerbatim := by
  rw [Line.opensVerbatim, h]

theorem head_of_ofContent {line : Line} {head : Head}
    (h : Head.ofContent line.content = .ok head) : line.head = head := by
  rw [Line.head, h]

/-- What lies below a block is placed there, whether the block keeps its lines or reads them. -/
theorem placed_body {body : List Line} {nodes : List Node}
    (structural : isStructural lines k = true)
    (opens : Head.ofContent (lineAt lines k).content = .ok (lineAt lines k).head)
    (covers : Covers lines (k + 1) body) (stays : StaysDeeper lines k (k + body.length))
    (kept : (lineAt lines k).head.isVerbatim = true → nodes = body.map Line.keptNode)
    (nested : (lineAt lines k).head.isVerbatim = false → Inside lines (some k) none (k + 1) →
      Placed lines (some k) (k + 1) body.length nodes) :
    Placed lines (some k) (k + 1) body.length nodes := by
  have kind := opensVerbatim_of_head opens
  cases verbatim : (lineAt lines k).head.isVerbatim with
  | true =>
      rw [verbatim] at kind
      rw [kept verbatim]
      exact placed_verbatim structural kind (k + 1) (Nat.lt_succ_self k) covers
        (stays.of_le (by omega))
  | false =>
      rw [verbatim] at kind
      exact nested verbatim (.nested structural kind)

/-- A body ends at the next sibling, and where there is none, with the whole run. -/
theorem Inside.endsAt {indent m : Nat} {rest : List Line} {siblings : List Node}
    (next : Inside lines p (some indent) m) (covers : Covers lines m rest)
    (more : Reads (some indent) rest siblings) (last : EndsAt lines indent (m + rest.length)) :
    EndsAt lines indent m := by
  cases rest with
  | nil => exact last
  | cons first rest =>
      obtain ⟨nonblank, same⟩ := more.head_atLevel
      rw [← covers.lineAt_first] at nonblank same
      refine .inr ⟨next.structural nonblank ?_, Nat.le_of_eq same⟩
      intro fixed eq
      exact same.trans (Option.some.inj eq)

/-- A derivation places its lines, wherever in a text they stand. -/
theorem Reads.placed {run : List Line} {nodes : List Node} (reads : Reads level run nodes)
    (covers : Covers lines k run) (inside : Inside lines p level k)
    (under : ∀ q ∈ p, Deeper (lineAt lines q).indent run)
    (ends : ∀ line ∈ run, line.isBlank = false → EndsAt lines line.indent (k + run.length)) :
    Placed lines p k run.length nodes := by
  induction reads generalizing p k with
  | nil => exact .nil
  | @blank line run nodes blank _ ih =>
      have here : (lineAt lines k).isBlank = true := by rwa [covers.lineAt_first]
      have first : Placed lines p k 1 [line.keptNode] := by
        rw [← covers.lineAt_first]
        exact .single (inside.parent?_of_blank here) (not_isStructural_of_blank here)
      have others : Placed lines p (k + 1) run.length nodes := by
        refine ih covers.tail (inside.blank here)
          (fun q eq => (under q eq).of_subset (List.subset_cons_self _ _)) ?_
        rw [Nat.add_assoc, Nat.add_comm 1]
        exact fun other member => ends other (List.mem_cons_of_mem _ member)
      rw [keptNode_of_blank blank] at first
      rw [List.length_cons, Nat.add_comm]
      exact first.append others
  | @block level line head body rest nodes siblings opens deeper kept nested more ihBody ihRest =>
      obtain rfl : lineAt lines k = line := covers.lineAt_first
      obtain rfl : (lineAt lines k).head = head := head_of_ofContent opens.head_eq
      obtain ⟨coversBody, coversRest⟩ := covers.tail.split
      have size : (lineAt lines k :: (body ++ rest)).length = (1 + body.length) + rest.length := by
        rw [List.length_cons, List.length_append]
        omega
      have bound : k + 1 + body.length ≤ lines.length := by
        have fits := covers.length_le
        rw [size, List.length_drop] at fits
        omega
      have structural : isStructural lines k = true :=
        inside.structural opens.nonblank opens.atLevel
      have here : parent? lines k = p := by
        apply inside.parent?_eq structural opens.atLevel
        intro q eq
        exact under q eq _ List.mem_cons_self opens.nonblank
      have stays : StaysDeeper lines k (k + body.length) :=
        coversBody.staysDeeper deeper (by omega)
      have next : Inside lines p (some (lineAt lines k).indent) (k + 1 + body.length) :=
        inside.next opens.atLevel (by omega) (stays.of_le (by omega))
      rw [size, ← Nat.add_assoc, ← Nat.add_assoc] at ends
      have endsBody : EndsAt lines (lineAt lines k).indent (k + 1 + body.length) :=
        next.endsAt coversRest more (ends _ List.mem_cons_self opens.nonblank)
      -- the body has the block for its parent, and what ends the block ends the body
      have placedBody : Placed lines (some k) (k + 1) body.length nodes := by
        apply placed_body structural opens.head_eq coversBody stays kept
        intro interpreted within
        refine ihBody interpreted coversBody within ?_ ?_
        · intro q eq
          obtain rfl := Option.some.inj eq
          exact deeper
        · intro line member nonblank
          exact endsBody.mono (Nat.le_of_lt (deeper line member nonblank))
      have placedBlock : Placed lines p k (1 + body.length)
          [.block (lineAt lines k).head (.lineBreak :: nodes)] :=
        .block here structural opens.head_eq stays bound endsBody placedBody
      -- the rest has the same parent as the block
      have placedRest : Placed lines p (k + (1 + body.length)) rest.length siblings := by
        have sub : rest ⊆ lineAt lines k :: (body ++ rest) := fun line member =>
          List.mem_cons_of_mem _ (List.mem_append_right body member)
        rw [← Nat.add_assoc]
        refine ihRest coversRest next ?_ ?_
        · intro q eq
          exact (under q eq).of_subset sub
        · intro line member
          exact ends line (sub member)
      rw [size]
      exact placedBlock.append placedRest

/-! ## Templates -/

theorem placed_of_parse {source : String} {root : Node} (h : parse source = .ok root) :
    ∃ nodes, root = .container nodes ∧
      Placed (sourceLines source) none 0 (sourceLines source).length nodes := by
  obtain ⟨nodes, reads, rfl⟩ := parse_eq_ok_iff.mp h
  refine ⟨nodes, rfl, reads.placed (List.prefix_refl _) ⟨nofun, nofun⟩ nofun ?_⟩
  intro line _ _
  exact .inl (Nat.zero_add _)

/-- A template has the tree that the indentation of its lines prescribes.  The heads in it are those
that the structural lines say, and every line has its place in it once. -/
theorem parse_prescribed {source : String} {root : Node} (h : parse source = .ok root) :
    root = prescribed (sourceLines source) ∧
      (∀ i, isStructural (sourceLines source) i = true →
        Head.ofContent (lineAt (sourceLines source) i).content =
          .ok (lineAt (sourceLines source) i).head) ∧
      (childLines (sourceLines source) none).flatMap (markers (sourceLines source)) =
        List.range (sourceLines source).length := by
  obtain ⟨nodes, rfl, placed⟩ := placed_of_parse h
  refine ⟨?_, ?_, ?_⟩
  · rw [prescribed, childLines_eq, ← placed.nodes_eq]
  · intro i structural
    have lt : i < (sourceLines source).length := lt_length_of_structural structural
    exact placed.heads i (Nat.zero_le i) (by omega) structural
  · rw [childLines_eq, placed.markers_eq, List.range_eq_range']

theorem parse_prescribed_sample :
    parse sample = .ok sampleTree ∧ sampleTree = prescribed (sourceLines sample) ∧
      (childLines (sourceLines sample) none).flatMap (markers (sourceLines sample)) =
        List.range 9 := by
  obtain ⟨tree, -, places⟩ := parse_prescribed parse_sample
  exact ⟨parse_sample, tree, places⟩

end Specimen.Template
