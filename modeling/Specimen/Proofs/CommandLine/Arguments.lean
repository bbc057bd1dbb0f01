/-
# Specimen.Proofs.CommandLine.Arguments — operands are words.

Options take words away and leave the others as they are.  So what a command is given to work on
stands among the words of the command line, letter by letter.
-/
import Specimen.CommandLine.Arguments

namespace Specimen.CommandLine

/-- The operands of a command, as bytes. -/
def Command.operands : Command → List Bytes
  | parse file => [file.bytes]
  | extract file argument _ _ => [file.bytes, argument]
  | index root _ => [root.bytes]

/-! ## Steps that may halt -/

section Steps

variable {α β : Type} {step : Except Halt α} {result : β}

theorem exists_of_map {f : α → β} (done : step.map f = .ok result) :
    ∃ value, step = .ok value ∧ f value = result := by
  cases step with
  | error halt => cases done
  | ok value => exact ⟨value, rfl, Except.ok.inj done⟩

theorem exists_of_bind {next : α → Except Halt β} (done : step >>= next = .ok result) :
    ∃ value, step = .ok value ∧ next value = .ok result := by
  cases step with
  | error halt => cases done
  | ok value => exact ⟨value, rfl, done⟩

end Steps

/-! ## Options -/

namespace Given

variable {given after : Given} {level : Level}

theorem operands_set {setting : Setting} {word : String}
    (taken : given.set setting word = .ok after) : after.operands = given.operands := by
  cases setting <;> obtain ⟨_, -, rfl⟩ := exists_of_map taken <;> rfl

theorem operands_switch {switch : Switch} (taken : given.switch switch = .ok after) :
    after.operands = given.operands := by
  cases switch with
  | verbose => cases taken; rfl
  | withSource =>
      rw [Given.switch] at taken
      split at taken <;> cases taken
      rfl
  | help => cases taken
  | version => cases taken

end Given

namespace Progress

variable {progress next : Progress} {given after : Given} {level : Level}

theorem operands_settle (taken : progress.settle = .ok after) :
    after.operands = progress.given.operands := by
  unfold settle at taken
  split at taken
  · cases taken; rfl
  · cases taken
  · exact Given.operands_set taken

theorem operands_letters {word : List Char} (taken : letters level given word = .ok after) :
    after.operands = given.operands := by
  induction word generalizing given with
  | nil => cases taken; rfl
  | cons letter word ih =>
      rw [letters] at taken
      split at taken
      · cases taken
      · split at taken
        · cases taken
        · next switched => exact (ih taken).trans (Given.operands_switch switched)

theorem operands_longOption {word : List Char} (taken : longOption level given word = .ok next) :
    next.given.operands = given.operands := by
  simp only [longOption] at taken
  split at taken
  · obtain ⟨_, switched, rfl⟩ := exists_of_map taken
    exact Given.operands_switch switched
  · cases taken; rfl
  · obtain ⟨_, filled, rfl⟩ := exists_of_map taken
    exact Given.operands_set filled
  · cases taken

/-- A word of options gives no operand. -/
theorem operands_option {word : List Char} (taken : progress.option level word = .ok next) :
    next.given.operands = progress.given.operands := by
  obtain ⟨given, settled, taken⟩ := exists_of_bind taken
  rw [← operands_settle settled]
  split at taken
  · exact operands_longOption taken
  · obtain ⟨_, read, rfl⟩ := exists_of_map taken
    exact operands_letters read

end Progress

/-! ## Words -/

theorem Given.operands_operand {given after : Given} {level : Level} {word : String}
    (taken : given.operand level word = .ok after) :
    after.operands = given.operands ++ [word] := by
  rw [Given.operand] at taken
  split at taken <;> cases taken
  rfl

/-- Behind two dashes every word is an operand. -/
theorem operands_foldlM {level : Level} {words : List String} {given after : Given}
    (taken : words.foldlM (fun given word => given.operand level word) given = .ok after) :
    after.operands = given.operands ++ words := by
  induction words generalizing given with
  | nil => cases taken; exact (List.append_nil _).symm
  | cons word words ih =>
      rw [List.foldlM_cons] at taken
      obtain ⟨between, first, others⟩ := exists_of_bind taken
      rw [ih others, Given.operands_operand first, List.append_assoc, List.singleton_append]

namespace Progress

/-- What stands behind the command is a part of the command line. -/
theorem subset_of_front {progress next : Progress} {words rest : List String}
    (read : front progress words = .ok (next, rest)) : rest ⊆ words := by
  induction words generalizing progress with
  | nil => cases read; exact List.Subset.refl _
  | cons word words ih =>
      rw [front] at read
      split at read
      · cases read
      · split at read
        · split at read
          · cases read
          · exact List.subset_cons_of_subset _ (ih read)
        · split at read
          · exact List.subset_cons_of_subset _ (ih read)
          · cases read; exact List.Subset.refl _

/-- Every operand was there before or is one of the words that are read. -/
theorem operands_subset_of_behind {level : Level} {progress : Progress} {words : List String}
    {after : Given} (read : behind level progress words = .ok after) :
    after.operands ⊆ progress.given.operands ++ words := by
  induction words generalizing progress with
  | nil =>
      rw [operands_settle read, List.append_nil]
      exact List.Subset.refl _
  | cons word words ih =>
      have wider : ∀ operands : List String, operands ++ words ⊆ operands ++ word :: words :=
        fun operands => List.append_subset.mpr ⟨List.subset_append_left _ _,
          List.subset_append_of_subset_right _ (List.subset_cons_self _ _)⟩
      rw [behind] at read
      split at read
      · -- two dashes
        obtain ⟨given, settled, others⟩ := exists_of_bind read
        rw [operands_foldlM others, operands_settle settled]
        exact wider _
      · split at read
        · -- options
          split at read
          · cases read
          · next taken =>
            rw [← operands_option taken]
            exact List.Subset.trans (ih read) (wider _)
        · split at read
          · -- the value of an option
            exact List.Subset.trans (ih read) (wider _)
          · -- an operand
            split at read
            · cases read
            · next settled =>
              split at read
              · cases read
              · next taken =>
                have others := ih read
                rwa [Given.operands_operand taken, operands_settle settled, List.append_assoc]
                  at others

end Progress

/-! ## Whole command lines -/

theorem Given.operands_command {given : Given} {level : Level} {command : Command}
    (made : given.command level = .ok command) :
    command.operands = given.operands.map Text.bytes := by
  unfold Given.command at made
  split at made
  -- the three commands are made alike
  iterate 3
    · split at made
      · next operands =>
        cases made
        rw [operands]
        rfl
      · cases made
  · cases made

/-- The operands of a command are words of the command line, as they were given. -/
theorem Invocation.operands_subset {words : List String} {invocation : Invocation}
    (understood : Invocation.ofArguments words = .ok invocation) :
    invocation.command.operands ⊆ words.map Text.bytes := by
  obtain ⟨⟨outer, rest⟩, front, understood⟩ := exists_of_bind understood
  have part := Progress.subset_of_front front
  dsimp only at understood
  split at understood
  · cases understood
  · split at understood
    · cases understood
    · split at understood
      · cases understood
      · obtain ⟨inner, behind, understood⟩ := exists_of_bind understood
        obtain ⟨command, made, understood⟩ := exists_of_bind understood
        obtain ⟨_, -, same⟩ := exists_of_bind understood
        cases same
        rw [Given.operands_command made]
        have operands := Progress.operands_subset_of_behind behind
        apply List.map_subset
        exact List.Subset.trans operands (List.Subset.trans (List.subset_cons_self _ _) part)

end Specimen.CommandLine
