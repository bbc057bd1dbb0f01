/-
# Specimen.Proofs.Template.Profile — what counts of the open blocks.

Of the blocks that are open, two things decide what becomes of the lines to come: how far each is
indented, and whether it is verbatim.  This is the profile.  Adding children to a block leaves it
alone, making room for a line cuts it down to the blocks that are indented less, and there is room
exactly if the line is indented deeper than the innermost block or one of them has its indentation.
-/
import Specimen.Proofs.Template.Step

namespace Specimen.Template

/-! ## Profiles -/

/-- The indentation of a block, and whether the block is verbatim. -/
def OpenBlock.stance (block : OpenBlock) : Nat × Bool := (block.indent, block.head.isVerbatim)

/-- The stances of the open blocks, innermost first. -/
def Outline.profile (outline : Outline) : List (Nat × Bool) :=
  outline.blocks.map OpenBlock.stance

@[simp]
theorem profile_nil (top : Array Node) : Outline.profile ⟨top, []⟩ = [] := rfl

@[simp]
theorem profile_cons (top : Array Node) (block : OpenBlock) (outer : List OpenBlock) :
    Outline.profile ⟨top, block :: outer⟩ = block.stance :: Outline.profile ⟨top, outer⟩ := rfl

@[simp]
theorem profile_attach (outline : Outline) (node : Node) :
    (outline.attach node).profile = outline.profile := by
  obtain ⟨top, blocks⟩ := outline
  cases blocks <;> rfl

@[simp]
theorem profile_openBlock (outline : Outline) (indent : Nat) (head : Head) :
    (outline.openBlock indent head).profile = (indent, head.isVerbatim) :: outline.profile := rfl

theorem keeps_iff_profile {outline : Outline} {indent : Nat} :
    outline.keeps indent = true ↔
      ∃ stance ∈ outline.profile.head?, stance.2 = true ∧ stance.1 < indent := by
  obtain ⟨top, blocks⟩ := outline
  cases blocks with
  | nil => simp [keeps_nil]
  | cons block outer => simp [keeps_cons, OpenBlock.stance]

/-! ## Closing -/

theorem Outline.Ordered.lt_of_mem_profile {top : Array Node} {block : OpenBlock}
    {outer : List OpenBlock} (ordered : Outline.Ordered ⟨top, block :: outer⟩)
    {stance : Nat × Bool} (member : stance ∈ Outline.profile ⟨top, outer⟩) :
    stance.1 < block.indent := by
  obtain ⟨other, inside, rfl⟩ := List.mem_map.mp member
  exact ((List.pairwise_cons.mp ordered).1 other inside).1

theorem Closes.mem_profile {indent : Nat} {outline room : Outline}
    (closes : Closes indent outline room) : ∃ stance ∈ outline.profile, stance.1 = indent := by
  induction closes with
  | here same => exact ⟨_, List.mem_cons_self, same⟩
  | up _ _ ih =>
      obtain ⟨stance, member, same⟩ := ih
      rw [profile_attach] at member
      exact ⟨stance, List.mem_cons_of_mem _ member, same⟩

/-- Where a block of the indentation is open, closing can be done. -/
theorem exists_closes {indent : Nat} {outline : Outline} (ordered : outline.Ordered)
    {stance : Nat × Bool} (member : stance ∈ outline.profile) (same : stance.1 = indent) :
    ∃ room, Closes indent outline room := by
  generalize shape : outline.profile = profile at member
  -- the blocks change while they are closed, their profile only gets shorter
  induction profile generalizing outline with
  | nil => cases member
  | cons first profile ih =>
      obtain ⟨top, _ | ⟨block, outer⟩⟩ := outline
      · cases shape
      · rw [profile_cons] at shape
        obtain ⟨rfl, rest⟩ := List.cons.inj shape
        rcases List.mem_cons.mp member with rfl | deeper
        · exact ⟨_, .here same⟩
        · have less : stance.1 < block.indent := ordered.lt_of_mem_profile (rest ▸ deeper)
          obtain ⟨room, closes⟩ := ih (ordered.leave block.close).1
            (by rw [profile_attach]; exact rest) deeper
          exact ⟨room, .up (by omega) closes⟩

theorem filter_profile_eq_self {indent : Nat} {outline : Outline}
    (less : ∀ stance ∈ outline.profile, stance.1 < indent) :
    outline.profile.filter (fun stance => stance.1 < indent) = outline.profile := by
  apply List.filter_eq_self.mpr
  intro stance member
  simpa using less stance member

theorem Closes.profile_eq {indent : Nat} {outline room : Outline}
    (closes : Closes indent outline room) (ordered : outline.Ordered) :
    room.profile = outline.profile.filter fun stance => stance.1 < indent := by
  induction closes with
  | @here top block outer same =>
      have less : ∀ stance ∈ Outline.profile ⟨top, outer⟩, stance.1 < indent := by
        intro stance member
        rw [← same]
        exact ordered.lt_of_mem_profile member
      rw [profile_attach, profile_cons, List.filter_cons_of_neg (by simp [OpenBlock.stance, same]),
        filter_profile_eq_self less]
  | @up top block outer room deeper _ ih =>
      have dropped : ¬ block.stance.1 < indent := Nat.lt_asymm deeper
      rw [ih (ordered.leave _).1, profile_attach, profile_cons,
        List.filter_cons_of_neg (by simpa using dropped)]

/-- Making room leaves the blocks that are indented less. -/
theorem Enters.profile_eq {indent : Nat} {outline room : Outline}
    (enters : Enters indent outline room) (ordered : outline.Ordered) :
    room.profile = outline.profile.filter fun stance => stance.1 < indent := by
  cases enters with
  | first => rfl
  | @inside top block outer deeper =>
      symm
      apply filter_profile_eq_self
      intro stance member
      rcases List.mem_cons.mp member with rfl | member
      · exact deeper
      · exact Nat.lt_trans (ordered.lt_of_mem_profile member) deeper
  | beside _ closes => exact closes.profile_eq ordered

/-- There is no room for a line that is not indented deeper than the innermost block, unless an open
block has its indentation. -/
theorem enter_eq_none_iff {outline : Outline} {indent : Nat} (ordered : outline.Ordered) :
    outline.enter indent = none ↔
      (∃ stance ∈ outline.profile.head?, indent ≤ stance.1) ∧
        ∀ stance ∈ outline.profile, stance.1 ≠ indent := by
  rw [Option.eq_none_iff_forall_ne_some]
  simp only [ne_eq, enter_eq_some_iff]
  obtain ⟨top, _ | ⟨block, outer⟩⟩ := outline
  · constructor
    · intro closed
      exact absurd .first (closed _)
    · rintro ⟨⟨stance, first, -⟩, -⟩
      cases first
  · constructor
    · intro closed
      have shallow : indent ≤ block.indent := by
        apply Nat.le_of_not_lt
        intro deeper
        exact closed _ (.inside deeper)
      refine ⟨⟨_, rfl, shallow⟩, ?_⟩
      intro stance member same
      obtain ⟨room, closes⟩ := exists_closes ordered member same
      exact closed room (.beside shallow closes)
    · rintro ⟨⟨stance, first, shallow⟩, unmatched⟩ room enters
      obtain rfl := Option.some.inj first
      cases enters with
      | inside deeper => exact absurd deeper (Nat.not_lt.mpr shallow)
      | beside _ closes =>
          obtain ⟨stance, member, same⟩ := closes.mem_profile
          exact unmatched stance member same

end Specimen.Template
