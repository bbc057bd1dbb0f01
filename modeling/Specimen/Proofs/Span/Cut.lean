/-
# Specimen.Proofs.Span.Cut — what a cut takes off, and what it leaves.

A cut takes one level off each line of a span and nothing else: with what the lines have lost put
back in front of them, they are the lines of the source again, line ends included.  Cuts of adjacent
spans add up, because every line is taken out by itself.

The same cut can be made by bytes, and there each line is cut at a number of bytes.  That number is
never beyond the end of the line and never inside a character, however wide a level is.
-/
import Specimen.Proofs.Outdent
import Specimen.Proofs.Text.Bytes

namespace Specimen

open Text

/-! ## One line -/

/-- What a line loses when it is taken out one level, and what is left of it. -/
inductive Loses (width : Nat) : (line lost left : List Char) → Prop
  /-- A tab, and only one, whatever the width is. -/
  | tab {left : List Char} : Loses width ('\t' :: left) ['\t'] left
  /-- As many blanks as the width says. -/
  | blanks {left : List Char} : (List.replicate width ' ' ++ left).head? ≠ some '\t' →
      Loses width (List.replicate width ' ' ++ left) (List.replicate width ' ') left
  /-- A line that begins with neither loses nothing. -/
  | nothing {line : List Char} : line.head? ≠ some '\t' →
      ¬ List.replicate width ' ' <+: line → Loses width line [] line

theorem replicate_isPrefix_iff {width : Nat} {line : List Char} :
    List.replicate width ' ' <+: line ↔ width ≤ (line.takeWhile (· = ' ')).length := by
  constructor
  · rintro ⟨left, rfl⟩
    rw [List.takeWhile_append_of_pos (by simp), List.length_append, List.length_replicate]
    omega
  · intro enough
    have front : List.replicate width ' ' <+: line.takeWhile (· = ' ') := by
      have blank : ∀ c ∈ line.takeWhile (· = ' '), c = ' ' := fun c member => by
        simpa using List.mem_takeWhile_imp member
      rw [List.eq_replicate_of_mem blank]
      exact List.prefix_replicate_iff.mpr (by simpa using enough)
    exact front.trans (List.takeWhile_prefix _)

theorem outdent_of_ne_tab {width : Nat} {line : List Char} (other : line.head? ≠ some '\t') :
    outdent width line =
      if width ≤ (line.takeWhile (· = ' ')).length then line.drop width else line := by
  unfold outdent
  split
  · next rest => exact absurd rfl other
  · rfl

theorem exists_loses (width : Nat) (line : List Char) :
    ∃ lost, line = lost ++ outdent width line ∧ Loses width line lost (outdent width line) := by
  by_cases first : line.head? = some '\t'
  · obtain ⟨left, rfl⟩ := List.head?_eq_some_iff.mp first
    exact ⟨['\t'], rfl, .tab⟩
  · rw [outdent_of_ne_tab first]
    by_cases front : List.replicate width ' ' <+: line
    · rw [if_pos (replicate_isPrefix_iff.mp front)]
      obtain ⟨left, rfl⟩ := front
      have rest : (List.replicate width ' ' ++ left).drop width = left :=
        List.drop_left' List.length_replicate
      rw [rest]
      exact ⟨_, rfl, .blanks first⟩
    · rw [if_neg (replicate_isPrefix_iff.not.mp front)]
      exact ⟨[], rfl, .nothing first front⟩

/-! ## A span -/

namespace Span

/-- The lines of a source that a span names, as far as they exist, with their line ends. -/
def wanted (span : Span) (source : String) : List (List Char) :=
  ((pieces source.toList).drop span.startLine).take span.lineCount

theorem toList_cut_eq (span : Span) (width : Nat) (source : String) :
    (span.cut width source).toList = (span.wanted source).flatMap (outdent width) :=
  String.toList_ofList

/-- The lines of a span, each in two parts: what it loses, and what the cut leaves of it. -/
structure Slices (span : Span) (width : Nat) (source : String)
    (rows : List (List Char × List Char)) : Prop where
  /-- With what was lost put back, the rows are the lines of the source. -/
  whole : rows.map (fun row => row.1 ++ row.2) = span.wanted source
  loses : ∀ row ∈ rows, Loses width (row.1 ++ row.2) row.1 row.2
  /-- What is left is the text of the cut. -/
  text : (span.cut width source).toList = rows.flatMap Prod.snd
  /-- It falls into the same lines again.  A line of which nothing is left is no line; only the last
  one of a source can vanish so. -/
  lines : pieces (span.cut width source).toList = (rows.map Prod.snd).filter (· ≠ [])

end Span

/-- Lines that are taken out are the lines of the text that they make, but for a last one that
vanishes. -/
theorem pieces_flatMap_outdent (width : Nat) {ps : List (List Char)} (cut : IsCut ps) :
    pieces (ps.flatMap (outdent width)) = (ps.map (outdent width)).filter (· ≠ []) := by
  induction cut with
  | nil => rfl
  | @last piece _ none =>
      obtain ⟨removed, shape, -⟩ := outdent_spec width piece
      have none' : '\n' ∉ outdent width piece := by
        intro member
        rw [shape] at none
        exact none (List.mem_append_right removed member)
      rw [List.flatMap_singleton, List.map_singleton]
      by_cases vanished : outdent width piece = []
      · rw [vanished]
        rfl
      · rw [pieces_of_not_mem vanished none', List.filter_cons_of_pos (by simpa using vanished),
          List.filter_nil]
  | @ended text rest none _ ih =>
      obtain ⟨text', shape, none'⟩ := outdent_newline width none
      rw [List.flatMap_cons, List.map_cons, shape, List.append_assoc, List.singleton_append,
        pieces_append_newline none', ih, List.filter_cons_of_pos (by simp)]

theorem Span.exists_slices (span : Span) (width : Nat) (source : String) :
    ∃ rows, span.Slices width source rows := by
  choose lost whole loses using exists_loses width
  let row (line : List Char) : List Char × List Char := (lost line, outdent width line)
  have isCut : IsCut (span.wanted source) := ((isCut_pieces source.toList).drop _).take _
  refine ⟨(span.wanted source).map row, ?_, ?_, ?_, ?_⟩
  · rw [List.map_map]
    exact List.map_id'' (fun line => (whole line).symm) _
  · rw [List.forall_mem_map]
    intro line _
    show Loses width (lost line ++ outdent width line) (lost line) (outdent width line)
    rw [← whole line]
    exact loses line
  · rw [toList_cut_eq, List.flatMap_map]
  · rw [toList_cut_eq, pieces_flatMap_outdent width isCut, List.map_map]
    rfl

/-- Adjacent spans are cut as one. -/
theorem Span.cut_append_cut (start first second width : Nat) (source : String) :
    Span.cut ⟨start, first⟩ width source ++ Span.cut ⟨start + first, second⟩ width source =
      Span.cut ⟨start, first + second⟩ width source := by
  rw [← String.toList_inj, String.toList_append, toList_cut_eq, toList_cut_eq, toList_cut_eq,
    ← List.flatMap_append]
  congr 1
  simp only [wanted, List.take_add, List.drop_drop]

/-! ## By bytes -/

/-- Takes one level of indentation off a line by cutting it behind some bytes.  There is no result
if the line cannot be cut there. -/
def outdentBytes? (width : Nat) (line : String) : Option String :=
  if line.toList.head? = some '\t' then fromByte? line '\t'.utf8Size
  else if (((bytes line).take width).takeWhile (· = blankByte)).length = width then
    fromByte? line width
  else some line

/-- Cuts a span out of a source line by line, each line by bytes. -/
def Span.cutBytes? (span : Span) (width : Nat) (source : String) : Option String :=
  ((span.wanted source).mapM fun line => outdentBytes? width (String.ofList line)).map String.join

/-- Every line can be cut where it is cut, and what is left is what is left of its characters. -/
theorem outdentBytes?_eq (width : Nat) (line : List Char) :
    outdentBytes? width (String.ofList line) = some (String.ofList (outdent width line)) := by
  have counted : (((bytes (String.ofList line)).take width).takeWhile (· = blankByte)).length =
      width ↔ List.replicate width ' ' <+: line := by
    rw [← List.take_takeWhile, List.length_take, length_takeWhile_blankByte,
      replicate_isPrefix_iff]
    omega
  rw [outdentBytes?, String.toList_ofList]
  by_cases first : line.head? = some '\t'
  · obtain ⟨left, rfl⟩ := List.head?_eq_some_iff.mp first
    rw [if_pos first, String.ofList_cons]
    exact fromByte?_append (String.singleton '\t') (String.ofList left)
  · rw [if_neg first, outdent_of_ne_tab first]
    by_cases front : List.replicate width ' ' <+: line
    · rw [if_pos (counted.mpr front), if_pos (replicate_isPrefix_iff.mp front)]
      obtain ⟨left, rfl⟩ := front
      have behind := fromByte?_append (String.ofList (List.replicate width ' '))
        (String.ofList left)
      rw [utf8ByteSize_blanks, ← String.ofList_append] at behind
      rw [behind, List.drop_left' List.length_replicate]
    · rw [if_neg (counted.not.mpr front), if_neg (replicate_isPrefix_iff.not.mp front)]

theorem Span.cutBytes?_eq (span : Span) (width : Nat) (source : String) :
    span.cutBytes? width source = some (span.cut width source) := by
  have each : (fun line => outdentBytes? width (String.ofList line)) =
      fun line => pure (String.ofList (outdent width line)) :=
    funext fun line => outdentBytes?_eq width line
  rw [cutBytes?, each, List.mapM_pure]
  refine congrArg some (String.toList_inj.mp ?_)
  rw [String.toList_join, List.flatMap_map, toList_cut_eq]
  simp only [String.toList_ofList]

/-! ## All of it -/

/-- A cut loses nothing but one level of each line, cuts of adjacent spans add up, and a cut by
bytes never fails, for all spans and widths. -/
theorem Span.cut_lossless (source : String) (width : Nat) :
    (∀ span : Span, ∃ rows, span.Slices width source rows) ∧
      (∀ start first second,
        Span.cut ⟨start, first⟩ width source ++ Span.cut ⟨start + first, second⟩ width source =
          Span.cut ⟨start, first + second⟩ width source) ∧
      ∀ span : Span, span.cutBytes? width source = some (span.cut width source) := by
  refine ⟨fun span => span.exists_slices width source, ?_, ?_⟩
  · exact fun start first second => Span.cut_append_cut start first second width source
  · exact fun span => span.cutBytes?_eq width source

end Specimen
