/-
# Specimen.Proofs.Text.Trim — what a trim leaves, and what it leaves alone.

A text is plain at its start (or its end) if no white space stands there; the empty text is both.
Trimming makes a text plain and changes no text that is plain already, so the two predicates say
exactly which texts a trim can give.
-/
import Mathlib.Data.List.DropRight
import Specimen.Text.Trim

namespace Specimen.Text

open Unicode

/-! ## Plain ends -/

/-- The text does not start with white space. -/
def StartsPlain (cs : List Char) : Prop := ∀ c ∈ cs.head?, isWhiteSpace c = false

/-- The text does not end in white space. -/
def EndsPlain (cs : List Char) : Prop := ∀ c ∈ cs.getLast?, isWhiteSpace c = false

theorem endsPlain_nil : EndsPlain [] := nofun

@[simp]
theorem startsPlain_cons {c : Char} {cs : List Char} :
    StartsPlain (c :: cs) ↔ isWhiteSpace c = false := by
  simp [StartsPlain]

@[simp]
theorem endsPlain_singleton {c : Char} : EndsPlain [c] ↔ isWhiteSpace c = false := by
  simp [EndsPlain]

/-- How a text ends is decided by its last part. -/
theorem endsPlain_append {a b : List Char} (nonempty : b ≠ []) :
    EndsPlain (a ++ b) ↔ EndsPlain b := by
  rw [EndsPlain, EndsPlain, List.getLast?_append_of_ne_nil a nonempty]

/-- Only the empty text is all white space and plain at its end. -/
theorem EndsPlain.eq_nil {cs : List Char} (plain : EndsPlain cs)
    (white : ∀ c ∈ cs, isWhiteSpace c = true) : cs = [] := by
  apply List.getLast?_eq_none_iff.mp
  rw [Option.eq_none_iff_forall_not_mem]
  intro c last
  have isWhite := white c (List.mem_of_getLast? last)
  simp [plain c last] at isWhite

theorem mem_head?_of_isPrefix {a b : List Char} (front : a <+: b) {c : Char} (first : c ∈ a.head?) :
    c ∈ b.head? := by
  obtain ⟨rest, rfl⟩ := front
  rw [List.head?_append, Option.mem_def.mp first]
  rfl

theorem StartsPlain.of_isPrefix {a b : List Char} (plain : StartsPlain b) (front : a <+: b) :
    StartsPlain a :=
  fun c first => plain c (mem_head?_of_isPrefix front first)

/-! ## Trimming -/

theorem trimEnd_isPrefix (cs : List Char) : trimEnd cs <+: cs :=
  List.rdropWhile_prefix isWhiteSpace cs

theorem trimStart_suffix (cs : List Char) : trimStart cs <:+ cs := List.dropWhile_suffix _

/-- A character at which dropping has stopped is not one to drop. -/
theorem not_of_mem_head?_dropWhile {p : Char → Bool} {cs : List Char} {c : Char}
    (first : c ∈ (cs.dropWhile p).head?) : p c = false := by
  have stops := List.head?_dropWhile_not p cs
  rw [Option.mem_def.mp first] at stops
  exact stops

theorem startsPlain_trimStart (cs : List Char) : StartsPlain (trimStart cs) :=
  fun _ first => not_of_mem_head?_dropWhile first

theorem endsPlain_trimEnd (cs : List Char) : EndsPlain (trimEnd cs) := by
  intro c last
  rw [trimEnd, List.getLast?_reverse] at last
  exact startsPlain_trimStart cs.reverse c last

theorem trimStart_eq_self {cs : List Char} (plain : StartsPlain cs) : trimStart cs = cs := by
  cases cs with
  | nil => rfl
  | cons c cs => simp [trimStart, startsPlain_cons.mp plain]

theorem trimEnd_eq_self {cs : List Char} (plain : EndsPlain cs) : trimEnd cs = cs := by
  have reversed : StartsPlain cs.reverse := by
    intro c first
    rw [List.head?_reverse] at first
    exact plain c first
  have same := trimStart_eq_self reversed
  rw [trimStart] at same
  rw [trimEnd, same, List.reverse_reverse]

/-- White space in front is trimmed, whatever stands behind it. -/
theorem trimStart_append {space : List Char} (white : ∀ c ∈ space, isWhiteSpace c = true)
    (cs : List Char) : trimStart (space ++ cs) = trimStart cs :=
  List.dropWhile_append_of_pos white

/-- White space at the end is trimmed, whatever stands before it. -/
theorem trimEnd_append {space : List Char} (white : ∀ c ∈ space, isWhiteSpace c = true)
    (cs : List Char) : trimEnd (cs ++ space) = trimEnd cs := by
  rw [trimEnd, List.reverse_append, List.dropWhile_append_of_pos (by simpa using white), trimEnd]

/-- What a trim at the start removes is white space. -/
theorem exists_white_trimStart (cs : List Char) :
    ∃ space, cs = space ++ trimStart cs ∧ ∀ c ∈ space, isWhiteSpace c = true :=
  ⟨cs.takeWhile isWhiteSpace, List.takeWhile_append_dropWhile.symm,
    fun _ member => List.mem_takeWhile_imp member⟩

/-- What a trim at the end removes is white space. -/
theorem exists_white_trimEnd (cs : List Char) :
    ∃ space, cs = trimEnd cs ++ space ∧ ∀ c ∈ space, isWhiteSpace c = true := by
  refine ⟨cs.rtakeWhile isWhiteSpace, ?_, ?_⟩
  · exact List.rdropWhile_append_rtakeWhile.symm
  · exact fun c member => List.mem_rtakeWhile_imp member

theorem trim_eq_nil_iff {cs : List Char} : trim cs = [] ↔ ∀ c ∈ cs, isWhiteSpace c = true := by
  constructor
  · intro h
    obtain ⟨space, split, white⟩ := exists_white_trimEnd (trimStart cs)
    have all : ∀ c ∈ trimStart cs, isWhiteSpace c = true := by
      rw [split, show trimEnd (trimStart cs) = [] from h, List.nil_append]
      exact white
    have nothing : trimStart cs = [] := by
      have plain := startsPlain_trimStart cs
      cases rest : trimStart cs with
      | nil => rfl
      | cons c rest =>
          rw [rest] at plain all
          simp [startsPlain_cons.mp plain] at all
    exact List.dropWhile_eq_nil_iff.mp nothing
  · intro white
    have nothing : trimStart cs = [] := List.dropWhile_eq_nil_iff.mpr white
    rw [trim, nothing]
    rfl

theorem startsPlain_trim (cs : List Char) : StartsPlain (trim cs) :=
  (startsPlain_trimStart cs).of_isPrefix (trimEnd_isPrefix _)

theorem endsPlain_trim (cs : List Char) : EndsPlain (trim cs) := endsPlain_trimEnd _

theorem trim_subset (cs : List Char) : trim cs ⊆ cs :=
  List.Subset.trans (trimEnd_isPrefix _).subset (trimStart_suffix cs).subset

/-- White space around a text that is plain at both ends is all that a trim removes. -/
theorem trim_append {space cs : List Char} (white : ∀ c ∈ space, isWhiteSpace c = true)
    (starts : StartsPlain cs) (ends : EndsPlain cs) : trim (space ++ cs) = cs := by
  rw [trim, trimStart_append white, trimStart_eq_self starts, trimEnd_eq_self ends]

/-- White space at the end does not change what a trim at both ends leaves. -/
theorem trim_append_white {space : List Char} (white : ∀ c ∈ space, isWhiteSpace c = true)
    (cs : List Char) : trim (cs ++ space) = trim cs := by
  have all : space.dropWhile isWhiteSpace = [] := List.dropWhile_eq_nil_iff.mpr white
  rw [trim, trim, trimStart, List.dropWhile_append, all]
  split
  · next none => rw [trimStart, List.isEmpty_iff.mp none]
  · exact trimEnd_append white _

end Specimen.Text
