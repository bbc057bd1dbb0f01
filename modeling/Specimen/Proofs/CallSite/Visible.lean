/-
# Specimen.Proofs.CallSite.Visible — calls in the tree and calls in the text.

Where a call stands and how many lines its body has is computed from the tree by counting line
breaks.  Both can also be seen in the text: the calls at the top level are the lines of the base
indentation that begin with an indicator of code, and the body of a call reaches to the next line
of that indentation.  `topLevel_visible` says that the two agree, call for call.
-/
import Mathlib.Data.List.Forall2
import Specimen.CallSite.Site
import Specimen.Proofs.Template.Reading

namespace Specimen.Template

open Text

/-! ## What can be seen in the lines -/

/-- The indentation of the first line that is not blank; zero if all lines are blank. -/
def baseIndent (lines : List Line) : Nat :=
  ((lines.find? fun line => !line.isBlank).map Line.indent).getD 0

/-- Whether a line is not blank and has this indentation. -/
def Line.standsAt (line : Line) (indent : Nat) : Bool := !line.isBlank && line.indent == indent

/-- The code of a content that begins with an indicator of code. -/
def shownCode? : List Char → Option String
  | '=' :: '=' :: rest => some (String.ofList (trim rest))
  | '=' :: rest => some (String.ofList (trim rest))
  | '-' :: rest => some (String.ofList (trim rest))
  | _ => none

theorem standsAt_iff {line : Line} {indent : Nat} :
    line.standsAt indent = true ↔ line.isBlank = false ∧ line.indent = indent := by
  simp [Line.standsAt]

theorem standsAt_of_deeper {indent : Nat} {body : List Line} (h : Deeper indent body) :
    ∀ line ∈ body, line.standsAt indent = false := by
  intro line member
  rw [← Bool.not_eq_true, standsAt_iff]
  rintro ⟨nonblank, same⟩
  have deeper := h line member nonblank
  omega

theorem drop_opening {α : Type} (front : List α) (opening : α) (below : List α) :
    (front ++ opening :: below).drop (front.length + 1) = below := by
  rw [List.append_cons, List.drop_left' (by rw [List.length_append, List.length_singleton])]

/-- The body of a block ends where the next sibling stands. -/
theorem takeWhile_body {indent : Nat} {body rest : List Line} {siblings : List Node}
    (deeper : Deeper indent body) (more : Reads (some indent) rest siblings) :
    ((body ++ rest).takeWhile fun line => !line.standsAt indent) = body := by
  have inside : ∀ line ∈ body, (!line.standsAt indent) = true := by
    intro line member
    rw [standsAt_of_deeper deeper line member]
    rfl
  rw [List.takeWhile_append_of_pos inside]
  cases rest with
  | nil => simp
  | cons line rest =>
      have stops : line.standsAt indent = true := standsAt_iff.mpr more.head_atLevel
      simp [stops]

/-- The siblings still to come stand at the level that is fixed. -/
theorem Reads.find_indent {indent : Nat} {lines : List Line} {nodes : List Node}
    (h : Reads (some indent) lines nodes) :
    ∀ line, lines.find? (fun line => !line.isBlank) = some line → line.indent = indent := by
  intro line found
  cases lines with
  | nil => contradiction
  | cons first lines =>
      obtain ⟨nonblank, same⟩ := h.head_atLevel
      rw [List.find?_cons_of_pos (by simp [nonblank])] at found
      exact Option.some.inj found ▸ same

/-! ## Heads and indicators -/

/-- The code of a head that is a call. -/
def Head.code? : Head → Option String
  | .call _ code => some code
  | .markup _ _ => none

theorem code?_of_ofCode {kind : CallKind} {rest : List Char} {head : Head}
    (h : Head.ofCode kind rest = .ok head) : head.code? = some (String.ofList (trim rest)) := by
  unfold Head.ofCode at h
  split at h
  · contradiction
  · obtain rfl := Except.ok.inj h
    rfl

/-- A head is a call exactly if the content begins with an indicator of code. -/
theorem shownCode?_of_ofContent {content : List Char} {head : Head}
    (h : Head.ofContent content = .ok head) : shownCode? content = head.code? := by
  unfold Head.ofContent at h
  split at h
  · rw [code?_of_ofCode h, shownCode?]
  · next once =>
    rw [code?_of_ofCode h, shownCode?]
    exact once
  · rw [code?_of_ofCode h]
    rfl
  iterate 4
    · obtain rfl := Except.ok.inj h
      rfl
  · next twice once control _ _ _ _ =>
    rw [shownCode?.eq_4 _ twice once control]
    split at h <;>
      · obtain rfl := Except.ok.inj h
        rfl

end Specimen.Template

namespace Specimen.CallSite

open Template

/-! ## Calls in the text -/

/-- The lines of an indentation that begin with an indicator of code, with their numbers.  The
numbers start at `first`. -/
def shownCalls (indent first : Nat) (lines : List Line) : List (Line × Nat) :=
  (lines.zipIdx first).filter fun place =>
    place.1.standsAt indent && (shownCode? place.1.content).isSome

/-- The call site is the one that a line shows: it has the line's code and number, and its body
reaches to the next line of the same indentation, past lines that are blank or indented deeper. -/
structure Shows (indent : Nat) (lines : List Line) (site : CallSite) (place : Line × Nat) :
    Prop where
  code : shownCode? place.1.content = some site.code
  callLine : site.callLine = place.2
  bodyStart : site.bodyStart = place.2 + 1
  lineCount : site.lineCount =
    ((lines.drop (place.2 + 1)).takeWhile fun line => !line.standsAt indent).length
  deeper : Deeper indent ((lines.drop site.bodyStart).take site.lineCount)

theorem shownCalls_cons (indent first : Nat) (line : Line) (lines : List Line) :
    shownCalls indent first (line :: lines) =
      if line.standsAt indent && (shownCode? line.content).isSome
        then (line, first) :: shownCalls indent (first + 1) lines
        else shownCalls indent (first + 1) lines := by
  rw [shownCalls, List.zipIdx_cons, List.filter_cons]
  rfl

theorem shownCalls_append_of_deeper {indent : Nat} {body : List Line} (h : Deeper indent body)
    (first : Nat) (rest : List Line) :
    shownCalls indent first (body ++ rest) = shownCalls indent (first + body.length) rest := by
  induction body generalizing first with
  | nil => rfl
  | cons line body ih =>
      have passed : line.standsAt indent = false := standsAt_of_deeper h line List.mem_cons_self
      have others : Deeper indent body :=
        fun other member => h other (List.mem_cons_of_mem _ member)
      rw [List.cons_append, shownCalls_cons, passed, ih others, List.length_cons]
      simp only [Bool.false_and, Bool.false_eq_true, if_false]
      congr 1
      omega

/-! ## Calls in the tree -/

theorem among_lineBreak (line : Nat) (nodes : List Node) :
    among line (.lineBreak :: nodes) = among (line + 1) nodes := rfl

theorem among_call (line : Nat) (kind : CallKind) (code : String) (body nodes : List Node) :
    among line (.block (.call kind code) body :: nodes) =
      ⟨kind, code, body, line⟩ :: among (line + Node.lineBreaksIn body) nodes := rfl

theorem among_markup (line : Nat) (kind : MarkupKind) (text : String) (body nodes : List Node) :
    among line (.block (.markup kind text) body :: nodes) =
      among (line + Node.lineBreaksIn body) nodes := rfl

theorem lineCount_eq {kind : CallKind} {code : String} {nodes : List Node} {callLine n : Nat}
    (size : Node.lineBreaksIn (.lineBreak :: nodes) = n + 1) :
    lineCount ⟨kind, code, .lineBreak :: nodes, callLine⟩ = n := by
  rw [lineCount, Node.bodyLineCount, size, Nat.add_sub_cancel]

/-- A call that is read from a line, together with its body, is shown by that line. -/
theorem shows_of_block {before body rest : List Line} {line : Line} {kind : CallKind}
    {code : String} {nodes siblings : List Node}
    (opens : Head.ofContent line.content = .ok (.call kind code))
    (deeper : Deeper line.indent body)
    (size : Node.lineBreaksIn (.lineBreak :: nodes) = body.length + 1)
    (more : Reads (some line.indent) rest siblings) :
    Shows line.indent (before ++ line :: (body ++ rest))
      ⟨kind, code, .lineBreak :: nodes, before.length⟩ (line, before.length) := by
  refine ⟨shownCode?_of_ofContent opens, rfl, rfl, ?_, ?_⟩
  · rw [lineCount_eq size, drop_opening, takeWhile_body deeper more]
  · rw [lineCount_eq size]
    show Deeper line.indent (((before ++ line :: (body ++ rest)).drop (before.length + 1)).take _)
    rw [drop_opening, List.take_left]
    exact deeper

/-- The calls among siblings are those that their lines show. -/
theorem among_shown {level : Option Nat} {lines : List Line} {nodes : List Node}
    (h : Reads level lines nodes) (indent : Nat)
    (first : ∀ line, lines.find? (fun line => !line.isBlank) = some line → line.indent = indent)
    (before : List Line) :
    List.Forall₂ (Shows indent (before ++ lines)) (among before.length nodes)
      (shownCalls indent before.length lines) := by
  induction h generalizing before with
  | nil => exact .nil
  | @blank line lines nodes blank _ ih =>
      have passed : line.standsAt indent = false := by simp [Line.standsAt, blank]
      have others := ih (by simpa [blank] using first) (before ++ [line])
      rw [shownCalls_cons, passed, among_lineBreak]
      simpa using others
  | @block level line head body rest nodes siblings opens deeper kept nested more _ ih =>
      -- the tree counts the line breaks of a block, the text the lines; both come to the same
      have size : Node.lineBreaksIn (.lineBreak :: nodes) = body.length + 1 :=
        Fills.lineBreaksIn_cons ⟨kept, nested⟩
      have next : (before ++ line :: body).length = before.length + (body.length + 1) := by
        rw [List.length_append, List.length_cons]
      obtain rfl : line.indent = indent :=
        first line (List.find?_cons_of_pos (by simp [opens.nonblank]))
      have stands : line.standsAt line.indent = true := standsAt_iff.mpr ⟨opens.nonblank, rfl⟩
      have others := ih more.find_indent (before ++ line :: body)
      rw [next, List.append_assoc, List.cons_append] at others
      rw [shownCalls_cons, stands, shownCode?_of_ofContent opens.head_eq,
        shownCalls_append_of_deeper deeper, Nat.add_assoc, Nat.add_comm 1]
      cases head with
      | call kind code =>
          rw [among_call, size]
          exact .cons (shows_of_block opens.head_eq deeper size more) others
      | markup kind text =>
          rw [among_markup, size]
          exact others

/-- The calls at the top level of a template are the calls that its lines show. -/
theorem topLevel_visible {source : String} {root : Node} (h : parse source = .ok root) :
    List.Forall₂ (Shows (baseIndent (sourceLines source)) (sourceLines source)) (topLevel root)
      (shownCalls (baseIndent (sourceLines source)) 0 (sourceLines source)) := by
  obtain ⟨nodes, reads, rfl⟩ := parse_eq_ok_iff.mp h
  refine among_shown reads _ ?_ []
  intro line found
  rw [baseIndent, found]
  rfl

/-- The small template has two calls; its text, which looks like a third one, is none. -/
theorem topLevel_visible_sample :
    parse sample = .ok sampleTree ∧
      List.Forall₂ (Shows 0 (sourceLines sample)) (topLevel sampleTree)
        (shownCalls 0 0 (sourceLines sample)) ∧
      (topLevel sampleTree).map (fun site => (site.callLine, site.lineCount)) =
        [(2, 4), (7, 1)] := by
  have base : baseIndent (sourceLines sample) = 0 := rfl
  have visible := topLevel_visible parse_sample
  rw [base] at visible
  exact ⟨parse_sample, visible, rfl⟩

end Specimen.CallSite
