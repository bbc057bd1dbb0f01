/-
# Specimen.Proofs.Template.Nesting — the tree that the indentation prescribes.

Which tree a template has can be said without reading it line by line.  A line that is not blank is
swallowed if a verbatim block is open around it, and structural otherwise; every line has a parent,
and this is the nearest earlier structural line that is indented less, the block that swallows the
line, or for a blank line simply the nearest earlier structural line.  The tree of a template then
has one node for every line, below the node of the line's parent, and siblings stand in the order
of the source.

Everything here is a computable function of the lines and their numbers, counted from zero.  The
lemmas say how lines and parents lie to each other: what lies below a line is a run of consecutive
lines, and a run ends where a structural line is not indented deeper.
-/
import Specimen.Proofs.Template.Step

namespace Specimen.Template

variable {lines : List Line}

/-! ## Structural and swallowed lines -/

/-- The line with this number; past the end, a blank line. -/
def lineAt (lines : List Line) (i : Nat) : Line := lines.getD i ⟨0, []⟩

theorem lineAt_of_le {i : Nat} (past : lines.length ≤ i) : lineAt lines i = ⟨0, []⟩ := by
  rw [lineAt, List.getD_eq_getElem?_getD, List.getElem?_eq_none past]
  rfl

theorem lineAt_of_lt {i : Nat} (inside : i < lines.length) : lineAt lines i = lines[i] := by
  rw [lineAt, List.getD_eq_getElem?_getD, List.getElem?_eq_getElem inside]
  rfl

theorem lt_length_of_nonblank {i : Nat} (nonblank : (lineAt lines i).isBlank = false) :
    i < lines.length := by
  apply Nat.lt_of_not_le
  intro past
  rw [lineAt_of_le past] at nonblank
  contradiction

/-- Whether the line opens a verbatim block: text, a comment or an embedded engine. -/
def Line.opensVerbatim (line : Line) : Bool :=
  match Head.ofContent line.content with
  | .ok head => head.isVerbatim
  | .error _ => false

/-- After line `v`, all lines up to line `i` that are not blank are indented deeper. -/
def StaysDeeper (lines : List Line) (v i : Nat) : Prop :=
  ∀ j ≤ i, v < j → (lineAt lines j).isBlank = false →
    (lineAt lines v).indent < (lineAt lines j).indent

instance (lines : List Line) (v i : Nat) : Decidable (StaysDeeper lines v i) :=
  inferInstanceAs (Decidable (∀ j ≤ i, v < j → (lineAt lines j).isBlank = false →
    (lineAt lines v).indent < (lineAt lines j).indent))

/-- Whether a line is structural: it is not blank, and no earlier structural line opens a verbatim
block that it still belongs to. -/
def isStructural (lines : List Line) (i : Nat) : Bool :=
  !(lineAt lines i).isBlank && i.all fun v _ =>
    !(isStructural lines v && (lineAt lines v).opensVerbatim && StaysDeeper lines v i)
termination_by i

/-- The verbatim block that line `v` opens takes in line `i`. -/
def Swallows (lines : List Line) (v i : Nat) : Prop :=
  isStructural lines v = true ∧ (lineAt lines v).opensVerbatim = true ∧ StaysDeeper lines v i

instance (lines : List Line) (v i : Nat) : Decidable (Swallows lines v i) :=
  inferInstanceAs (Decidable (_ ∧ _ ∧ _))

theorem isStructural_iff {i : Nat} : isStructural lines i = true ↔
    (lineAt lines i).isBlank = false ∧ ∀ v < i, ¬ Swallows lines v i := by
  rw [isStructural, Nat.all_eq_finRange_all, Bool.and_eq_true, Bool.not_eq_true']
  apply and_congr_right
  intro _
  -- what is left is to read the Boolean conjunction over all earlier lines as a proposition
  simp only [List.all_eq_true, List.mem_finRange, true_imp_iff, Fin.forall_iff, Swallows]
  grind

/-- A line that is neither blank nor structural is swallowed. -/
theorem exists_swallows {i : Nat} (nonblank : (lineAt lines i).isBlank = false)
    (swallowed : isStructural lines i = false) : ∃ v < i, Swallows lines v i := by
  by_cases free : ∀ v < i, ¬ Swallows lines v i
  · simp [isStructural_iff.mpr ⟨nonblank, free⟩] at swallowed
  · simpa using free

theorem not_isStructural_of_blank {i : Nat} (blank : (lineAt lines i).isBlank = true) :
    isStructural lines i = false := by
  rw [isStructural, blank]
  rfl

theorem lt_length_of_structural {i : Nat} (structural : isStructural lines i = true) :
    i < lines.length :=
  lt_length_of_nonblank (isStructural_iff.mp structural).1

theorem not_isStructural_of_swallows {v i : Nat} (lt : v < i) (h : Swallows lines v i) :
    isStructural lines i = false := by
  rw [← Bool.not_eq_true, isStructural_iff]
  exact fun structural => structural.2 v lt h

theorem StaysDeeper.of_le {v i j : Nat} (h : StaysDeeper lines v i) (le : j ≤ i) :
    StaysDeeper lines v j :=
  fun k lek => h k (Nat.le_trans lek le)

/-- What a line swallows, it swallows from its own line on. -/
theorem Swallows.of_le {v i j : Nat} (h : Swallows lines v i) (le : j ≤ i) :
    Swallows lines v j :=
  ⟨h.1, h.2.1, h.2.2.of_le le⟩

/-! ## Parents -/

/-- The last number below `i` that passes the test. -/
def lastBelow? (test : Nat → Bool) (i : Nat) : Option Nat := (List.range i).findRev? test

/-- The number of the line whose node is the parent of the node of line `i`; none if the parent is
the root. -/
def parent? (lines : List Line) (i : Nat) : Option Nat :=
  if (lineAt lines i).isBlank then lastBelow? (isStructural lines) i
  else if isStructural lines i then
    lastBelow? (fun j =>
      isStructural lines j && (lineAt lines j).indent < (lineAt lines i).indent) i
  else lastBelow? (fun v => Swallows lines v i) i

theorem lastBelow?_succ (test : Nat → Bool) (i : Nat) :
    lastBelow? test (i + 1) = if test i then some i else lastBelow? test i := by
  unfold lastBelow?
  rw [List.findRev?_eq_find?_reverse, List.findRev?_eq_find?_reverse, List.range_succ,
    List.reverse_append, List.reverse_singleton, List.singleton_append, List.find?_cons]
  cases test i <;> rfl

theorem lastBelow?_eq_some_iff {test : Nat → Bool} {i j : Nat} :
    lastBelow? test i = some j ↔
      j < i ∧ test j = true ∧ ∀ k, j < k → k < i → test k = false := by
  induction i with
  | zero => simp [lastBelow?]
  | succ i ih =>
      rw [lastBelow?_succ]
      cases last : test i with
      | true =>
          constructor
          · intro h
            obtain rfl := Option.some.inj h
            exact ⟨Nat.lt_succ_self _, last, fun k gt lt => by omega⟩
          · rintro ⟨lt, -, later⟩
            have same : ¬ j < i := fun lt => by simp [later i lt (Nat.lt_succ_self i)] at last
            exact congrArg some (by omega)
      | false =>
          rw [if_neg Bool.false_ne_true, ih]
          constructor
          · rintro ⟨lt, passes, later⟩
            refine ⟨by omega, passes, ?_⟩
            intro k gt ltk
            rcases Nat.lt_succ_iff_lt_or_eq.mp ltk with ltk | rfl
            · exact later k gt ltk
            · exact last
          · rintro ⟨lt, passes, later⟩
            have ne : j ≠ i := by
              rintro rfl
              simp [passes] at last
            exact ⟨by omega, passes, fun k gt ltk => later k gt (by omega)⟩

theorem lastBelow?_eq_none_iff {test : Nat → Bool} {i : Nat} :
    lastBelow? test i = none ↔ ∀ k < i, test k = false := by
  simp [lastBelow?]

theorem parent?_of_blank {i : Nat} (blank : (lineAt lines i).isBlank = true) :
    parent? lines i = lastBelow? (isStructural lines) i := if_pos blank

theorem parent?_of_structural {i : Nat} (structural : isStructural lines i = true) :
    parent? lines i = lastBelow? (fun j =>
      isStructural lines j && (lineAt lines j).indent < (lineAt lines i).indent) i := by
  rw [parent?, if_neg (by simp [(isStructural_iff.mp structural).1]), if_pos structural]

theorem parent?_of_swallowed {i : Nat} (nonblank : (lineAt lines i).isBlank = false)
    (swallowed : isStructural lines i = false) :
    parent? lines i = lastBelow? (fun v => Swallows lines v i) i := by
  rw [parent?, if_neg (by simp [nonblank]), if_neg (by simp [swallowed])]

/-- The parent is an earlier structural line, and every structural line after it, up to the child,
is indented deeper. -/
theorem parent?_bounds {i p : Nat} (h : parent? lines i = some p) :
    p < i ∧ isStructural lines p = true ∧ ∀ e ≤ i, p < e → isStructural lines e = true →
      (lineAt lines p).indent < (lineAt lines e).indent := by
  -- one case for each kind of line, as in the definition of the parent
  cases blank : (lineAt lines i).isBlank with
  | true =>
      rw [parent?_of_blank blank, lastBelow?_eq_some_iff] at h
      obtain ⟨lt, structural, later⟩ := h
      refine ⟨lt, structural, ?_⟩
      intro e le gt other
      rcases Nat.lt_or_eq_of_le le with less | rfl
      · simp [later e gt less] at other
      · simp [not_isStructural_of_blank blank] at other
  | false =>
  cases kind : isStructural lines i with
  | true =>
      rw [parent?_of_structural kind, lastBelow?_eq_some_iff] at h
      simp only [Bool.and_eq_true, decide_eq_true_eq] at h
      obtain ⟨lt, ⟨structural, less⟩, later⟩ := h
      refine ⟨lt, structural, ?_⟩
      intro e le gt other
      rcases Nat.lt_or_eq_of_le le with lte | rfl
      · have above := later e gt lte
        rw [other, Bool.true_and, decide_eq_false_iff_not, Nat.not_lt] at above
        exact Nat.lt_of_lt_of_le less above
      · exact less
  | false =>
      rw [parent?_of_swallowed blank kind, lastBelow?_eq_some_iff] at h
      simp only [decide_eq_true_eq] at h
      obtain ⟨lt, ⟨structural, _, deeper⟩, _⟩ := h
      exact ⟨lt, structural, fun e le gt other => deeper e le gt (isStructural_iff.mp other).1⟩

theorem lastBelow?_ge {test : Nat → Bool} {e i : Nat} (lt : e < i) (passes : test e = true) :
    ∃ j, lastBelow? test i = some j ∧ e ≤ j := by
  cases found : lastBelow? test i with
  | none => simp [lastBelow?_eq_none_iff.mp found e lt] at passes
  | some j =>
      refine ⟨j, rfl, Nat.le_of_not_lt fun gt => ?_⟩
      simp [(lastBelow?_eq_some_iff.mp found).2.2 e gt lt] at passes

/-- Below a structural line that is indented less, a line has no earlier parent. -/
theorem parent?_ge {e i : Nat} (lt : e < i) (structural : isStructural lines e = true)
    (deeper : (lineAt lines i).isBlank = false →
      (lineAt lines e).indent < (lineAt lines i).indent) :
    ∃ p, parent? lines i = some p ∧ e ≤ p := by
  cases blank : (lineAt lines i).isBlank with
  | true =>
      rw [parent?_of_blank blank]
      exact lastBelow?_ge lt structural
  | false =>
  cases kind : isStructural lines i with
  | true =>
      rw [parent?_of_structural kind]
      exact lastBelow?_ge lt (by simp [structural, deeper blank])
  | false =>
      rw [parent?_of_swallowed blank kind]
      obtain ⟨v, ltv, swallows⟩ := exists_swallows blank kind
      -- the block that swallows the line cannot be open before `e`, or it would swallow `e` too
      have le : e ≤ v := Nat.le_of_not_lt fun gt => by
        simp [not_isStructural_of_swallows gt (swallows.of_le (Nat.le_of_lt lt))] at structural
      obtain ⟨p, found, lep⟩ : ∃ p, lastBelow? (fun v => Swallows lines v i) i = some p ∧ v ≤ p :=
        lastBelow?_ge ltv (by simpa)
      exact ⟨p, found, Nat.le_trans le lep⟩

/-- A line that a block swallows lies below that block and no other. -/
theorem parent?_of_swallows {v i : Nat} (lt : v < i) (h : Swallows lines v i) :
    parent? lines i = some v := by
  have swallowed : isStructural lines i = false := not_isStructural_of_swallows lt h
  have later : ∀ j, v < j → j < i → isStructural lines j = false := fun j gt ltj =>
    not_isStructural_of_swallows gt (h.of_le (Nat.le_of_lt ltj))
  cases blank : (lineAt lines i).isBlank with
  | true =>
      rw [parent?_of_blank blank]
      exact lastBelow?_eq_some_iff.mpr ⟨lt, h.1, later⟩
  | false =>
      rw [parent?_of_swallowed blank swallowed]
      refine lastBelow?_eq_some_iff.mpr ⟨lt, by simpa using h, fun j gt ltj => ?_⟩
      simp [Swallows, later j gt ltj]

/-! ## The prescribed tree -/

/-- The lines with a given parent, in order. -/
def childLines (lines : List Line) (p : Option Nat) : List Nat :=
  (List.range lines.length).filter fun i => parent? lines i == p

theorem mem_childLines {p : Option Nat} {i : Nat} :
    i ∈ childLines lines p ↔ i < lines.length ∧ parent? lines i = p := by
  simp [childLines]

theorem childLines_decreasing {i j : Nat} (h : j ∈ childLines lines (some i)) :
    lines.length - j < lines.length - i := by
  have bound := (mem_childLines.mp h).1
  have gt := (parent?_bounds (mem_childLines.mp h).2).1
  omega

/-- The head that the line gives to a block.  A line that lacks its code gives a call without
code. -/
def Line.head (line : Line) : Head :=
  match Head.ofContent line.content with
  | .ok head => head
  | .error kind => .call kind ""

/-- The node of a line.  A structural line has the node that its content says, with its own line
break and the nodes of its children below it; any other line has the node of a line that is not
interpreted. -/
def node (lines : List Line) (i : Nat) : Node :=
  if isStructural lines i then
    .block (lineAt lines i).head
      (.lineBreak :: (childLines lines (some i)).attach.map fun j => node lines j.1)
  else (lineAt lines i).keptNode
termination_by lines.length - i
decreasing_by exact childLines_decreasing j.2

/-- The lines that leave their line breaks in the node of line `i`, in the order of the tree: the
line itself, and then those of its children. -/
def markers (lines : List Line) (i : Nat) : List Nat :=
  i :: ((childLines lines (some i)).attach.map fun j => markers lines j.1).flatten
termination_by lines.length - i
decreasing_by exact childLines_decreasing j.2

/-- The tree that the indentation prescribes. -/
def prescribed (lines : List Line) : Node :=
  .container ((childLines lines none).map (node lines))

theorem node_of_structural {i : Nat} (structural : isStructural lines i = true) :
    node lines i = .block (lineAt lines i).head
      (.lineBreak :: (childLines lines (some i)).map (node lines)) := by
  rw [node, if_pos structural, List.attach_map_val]

theorem node_of_not_structural {i : Nat} (h : isStructural lines i = false) :
    node lines i = (lineAt lines i).keptNode := by
  rw [node, if_neg (by simp [h])]

theorem markers_eq (i : Nat) : markers lines i =
    i :: (childLines lines (some i)).flatMap (markers lines) := by
  rw [markers, List.attach_map_val, List.flatMap_def]

/-- Only structural lines have lines below them. -/
theorem markers_of_not_structural {i : Nat} (h : isStructural lines i = false) :
    markers lines i = [i] := by
  have childless : childLines lines (some i) = [] := by
    apply List.eq_nil_iff_forall_not_mem.mpr
    intro j member
    simp [(parent?_bounds (mem_childLines.mp member).2).2.1] at h
  rw [markers_eq, childless]
  rfl

end Specimen.Template
