/-
# Specimen.Proofs.Template.Edits — changes to a file that keep its layout.

Editors and formatters change the white space of a file: they indent with another unit, turn tabs
into blanks, strip or add white space at the ends of lines and on blank lines, end lines with a
carriage return, or add the final newline that was missing.  None of this changes the tree or the
fault of a source.  `Relaid` relates two texts of one line that differ in such white space only;
the two changes that concern the ends of lines are stated on the whole text.
-/
import Specimen.Proofs.Template.Layout

namespace Specimen.Template

open Text Unicode

/-! ## Lines that are laid out anew -/

/-- The texts of the lines of a source, without their newlines. -/
def textLines (source : String) : List (List Char) :=
  (pieces (withoutByteOrderMark source.toList)).map withoutNewline

theorem sourceLines_eq_textLines (source : String) :
    sourceLines source = (textLines source).map Line.ofChars := by
  rw [sourceLines_eq, textLines, List.map_map]
  rfl

/-- Two texts of a line: both are white space, or they say the same between other indentation in
front and other white space behind.  The widths of the indentations correspond. -/
inductive Relaid (R : Nat → Nat → Prop) : List Char → List Char → Prop
  | blank {text text' : List Char} : (∀ c ∈ text, isWhiteSpace c = true) →
      (∀ c ∈ text', isWhiteSpace c = true) → Relaid R text text'
  | content {front front' : List Char} {first : Char} {rest back back' : List Char} :
      (∀ c ∈ front, isIndentation c = true) → (∀ c ∈ front', isIndentation c = true) →
      R front.length front'.length → isIndentation first = false →
      (∀ c ∈ back, isWhiteSpace c = true) → (∀ c ∈ back', isWhiteSpace c = true) →
      Relaid R (front ++ (first :: rest ++ back)) (front' ++ (first :: rest ++ back'))

theorem content_of_white {text : List Char} (white : ∀ c ∈ text, isWhiteSpace c = true) :
    (Line.ofChars text).content = [] := by
  have inside : text.dropWhile isIndentation ⊆ text := (List.dropWhile_suffix _).subset
  exact (endsPlain_trimEnd _).eq_nil fun c member =>
    white c (inside ((trimEnd_isPrefix _).subset member))

theorem ofChars_laid {front : List Char} {first : Char} {rest back : List Char}
    (indentation : ∀ c ∈ front, isIndentation c = true) (stops : isIndentation first = false)
    (white : ∀ c ∈ back, isWhiteSpace c = true) :
    Line.ofChars (front ++ (first :: rest ++ back)) = ⟨front.length, trimEnd (first :: rest)⟩ := by
  rw [Line.ofChars_append indentation (by simpa using stops), trimEnd_append white]

/-- A text of a line with more white space behind. -/
theorem relaid_append {R : Nat → Nat → Prop} (same : ∀ a, R a a) (text : List Char)
    {space : List Char} (white : ∀ c ∈ space, isWhiteSpace c = true) :
    Relaid R text (text ++ space) := by
  cases behind : text.dropWhile isIndentation with
  | nil =>
      have blank : ∀ c ∈ text, isWhiteSpace c = true := fun c member =>
        isWhiteSpace_of_isIndentation (List.dropWhile_eq_nil_iff.mp behind c member)
      refine .blank blank ?_
      intro c member
      rcases List.mem_append.mp member with inText | inSpace
      · exact blank c inText
      · exact white c inSpace
  | cons first rest =>
      have shape : text.takeWhile isIndentation ++ first :: rest = text := by
        rw [← behind, List.takeWhile_append_dropWhile]
      have indentation : ∀ c ∈ text.takeWhile isIndentation, isIndentation c = true :=
        fun c member => List.mem_takeWhile_imp member
      have stops : isIndentation first = false :=
        not_of_mem_head?_dropWhile (Option.mem_def.mpr (congrArg List.head? behind))
      have relaid : Relaid R (text.takeWhile isIndentation ++ (first :: rest ++ []))
          (text.takeWhile isIndentation ++ (first :: rest ++ space)) :=
        .content indentation indentation (same _) stops nofun white
      rwa [List.append_nil, ← List.append_assoc, shape] at relaid

/-- Two texts of a line that are laid out differently say the same. -/
theorem Relaid.corresponds {R : Nat → Nat → Prop} {text text' : List Char}
    (relaid : Relaid R text text') : Corresponds R (Line.ofChars text) (Line.ofChars text') := by
  cases relaid with
  | blank white white' =>
      have empty := content_of_white white
      refine ⟨(content_of_white white').trans empty.symm, ?_⟩
      intro nonblank
      simp [Line.isBlank, empty] at nonblank
  | content indentation indentation' widths stops white white' =>
      rw [ofChars_laid indentation stops white, ofChars_laid indentation' stops white']
      exact ⟨rfl, fun _ => widths⟩

theorem parse_eq_of_relaid {R : Nat → Nat → Prop} (order : KeepsOrder R) {source source' : String}
    (relaid : List.Forall₂ (Relaid R) (textLines source) (textLines source')) :
    parse source' = parse source := by
  apply parse_eq_of_sameLayout
  apply SameLayout.of_corresponds order
  rw [sourceLines_eq_textLines, sourceLines_eq_textLines, List.forall₂_map_left_iff,
    List.forall₂_map_right_iff]
  exact relaid.imp fun _ _ => Relaid.corresponds

theorem keepsOrder_eq : KeepsOrder fun a a' => a = a' := by
  rintro a _ b _ rfl rfl
  exact Iff.rfl

/-- Indentations that are multiples of one unit become the same multiples of another. -/
def Rescales (unit unit' : Nat) (a a' : Nat) : Prop := ∃ n, a = n * unit ∧ a' = n * unit'

theorem keepsOrder_rescales {unit unit' : Nat} (pos : 0 < unit) (pos' : 0 < unit') :
    KeepsOrder (Rescales unit unit') := by
  rintro a a' b b' ⟨n, rfl, rfl⟩ ⟨m, rfl, rfl⟩
  rw [Nat.mul_lt_mul_right pos, Nat.mul_lt_mul_right pos']

/-! ## Carriage returns -/

/-- The text with a carriage return in front of every newline. -/
def withCarriageReturns (cs : List Char) : List Char :=
  cs.flatMap fun c => if c = '\n' then ['\r', '\n'] else [c]

theorem withCarriageReturns_cons_of_ne {c : Char} (ne : c ≠ '\n') (cs : List Char) :
    withCarriageReturns (c :: cs) = c :: withCarriageReturns cs := by
  simp [withCarriageReturns, ne]

theorem withCarriageReturns_newline (cs : List Char) :
    withCarriageReturns ('\n' :: cs) = '\r' :: '\n' :: withCarriageReturns cs := rfl

theorem pieces_withCarriageReturns (cs : List Char) :
    pieces (withCarriageReturns cs) = (pieces cs).map withCarriageReturns := by
  induction cs with
  | nil => rfl
  | cons c cs ih =>
      by_cases newline : c = '\n'
      · subst newline
        rw [withCarriageReturns_newline, pieces_cons, pieces_cons, pieces_cons, ih,
          prepend_newline, prepend_newline, prepend_of_ne (by decide)]
        rfl
      · rw [withCarriageReturns_cons_of_ne newline, pieces_cons, pieces_cons, ih]
        cases pieces cs with
        | nil => simp [prepend, withCarriageReturns, newline]
        | cons piece ps =>
            rw [List.map_cons, prepend_of_ne newline, prepend_of_ne newline, List.map_cons,
              withCarriageReturns_cons_of_ne newline]

theorem withoutNewline_withCarriageReturns (piece : List Char) :
    withoutNewline (withCarriageReturns piece) =
      withoutNewline piece ++ if '\n' ∈ piece then ['\r'] else [] := by
  induction piece with
  | nil => rfl
  | cons c piece ih =>
      by_cases newline : c = '\n'
      · subst newline
        simp [withCarriageReturns_newline, withoutNewline]
      · have ne : ¬ '\n' = c := fun same => newline same.symm
        rw [withCarriageReturns_cons_of_ne newline, withoutNewline_cons_of_ne newline,
          withoutNewline_cons_of_ne newline, ih]
        simp [ne]

theorem withoutByteOrderMark_withCarriageReturns (cs : List Char) :
    withoutByteOrderMark (withCarriageReturns cs) =
      withCarriageReturns (withoutByteOrderMark cs) := by
  cases cs with
  | nil => rfl
  | cons c cs =>
      by_cases newline : c = '\n'
      · subst newline
        rfl
      · rw [withCarriageReturns_cons_of_ne newline, withoutByteOrderMark, withoutByteOrderMark]
        split
        · rfl
        · rw [withCarriageReturns_cons_of_ne newline]

/-- Lines that end with a carriage return are laid out differently, and that is all. -/
theorem relaid_withCarriageReturns (source : String) :
    List.Forall₂ (Relaid fun a a' => a = a') (textLines source)
      (textLines (String.ofList (withCarriageReturns source.toList))) := by
  rw [textLines, textLines, String.toList_ofList, withoutByteOrderMark_withCarriageReturns,
    pieces_withCarriageReturns, List.map_map, List.forall₂_map_left_iff,
    List.forall₂_map_right_iff, List.forall₂_same]
  intro piece _
  rw [Function.comp_apply, withoutNewline_withCarriageReturns]
  apply relaid_append (fun _ => rfl)
  split
  · exact List.forall_mem_singleton.mpr (by decide)
  · exact List.forall_mem_nil _

/-! ## The final newline -/

/-- The lines of a source whose last line has no newline stay the same when it is given one. -/
theorem textLines_append_newline {source : String} {last : Char}
    (ends : (withoutByteOrderMark source.toList).getLast? = some last) (unended : last ≠ '\n') :
    textLines (source ++ "\n") = textLines source := by
  have whole : withoutByteOrderMark (source ++ "\n").toList =
      withoutByteOrderMark source.toList ++ ['\n'] := by
    rw [String.toList_append]
    cases text : source.toList with
    | nil => simp [text, withoutByteOrderMark] at ends
    | cons c cs =>
        rw [List.cons_append, withoutByteOrderMark, withoutByteOrderMark]
        split <;> rfl
  rw [textLines, textLines, whole, map_withoutNewline_append ends unended]

/-! ## Templates -/

/-- Of the layout of a source, only how the indentations compare matters: sources in the same layout
have the same tree, or the same fault in the same line.  So nothing changes when lines get other
white space around what they say, with as much indentation as before or rescaled to another unit,
when they get carriage returns, or when the last line gets the newline that it lacks. -/
theorem parse_layout (source source' : String) :
    (SameLayout (sourceLines source) (sourceLines source') → parse source' = parse source) ∧
      (List.Forall₂ (Relaid fun a a' => a = a') (textLines source) (textLines source') →
        parse source' = parse source) ∧
      (∀ unit unit', 0 < unit → 0 < unit' →
        List.Forall₂ (Relaid (Rescales unit unit')) (textLines source) (textLines source') →
        parse source' = parse source) ∧
      parse (String.ofList (withCarriageReturns source.toList)) = parse source ∧
      (∀ last, (withoutByteOrderMark source.toList).getLast? = some last → last ≠ '\n' →
        parse (source ++ "\n") = parse source) := by
  refine ⟨parse_eq_of_sameLayout, parse_eq_of_relaid keepsOrder_eq, ?_, ?_, ?_⟩
  · intro unit unit' pos pos'
    exact parse_eq_of_relaid (keepsOrder_rescales pos pos')
  · exact parse_eq_of_relaid keepsOrder_eq (relaid_withCarriageReturns source)
  · intro last ends unended
    rw [parse, parse, sourceLines_eq_textLines, textLines_append_newline ends unended,
      ← sourceLines_eq_textLines]

/-- Two sources in the same layout, in which hardly a line is written alike. -/
theorem parse_layout_sample :
    SameLayout (sourceLines "div\n  p\n    | a\n  - go\n\n")
        (sourceLines "\uFEFFdiv \r\n\tp\r\n\t\t\t| a\r\n\t- go\r\n   ") ∧
      parse "\uFEFFdiv \r\n\tp\r\n\t\t\t| a\r\n\t- go\r\n   " =
        parse "div\n  p\n    | a\n  - go\n\n" := by
  have same : SameLayout (sourceLines "div\n  p\n    | a\n  - go\n\n")
      (sourceLines "\uFEFFdiv \r\n\tp\r\n\t\t\t| a\r\n\t- go\r\n   ") := by decide +kernel
  exact ⟨same, (parse_layout _ _).1 same⟩

end Specimen.Template
