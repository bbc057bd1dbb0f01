/-
# Specimen.Proofs.CallSite.Body — the body of a call, taken out, is a template.

The lines below a call are derived by the grammar just as the lines of a template are.  Cutting them
out of the source changes how far they are indented, and the grammar only looks at how indentations
compare.  `parse_cut` puts this together: the text that is cut out is a template, and its tree has
the children of the call, all but the line break of the call itself.
-/
import Specimen.Proofs.CallSite.Visible
import Specimen.Proofs.Outdent

namespace Specimen.CallSite

open Text Template

/-! ## Where a call comes from -/

/-- A call among siblings was opened by one of the lines, and its children are derived from the
lines below that one. -/
theorem exists_of_mem_among {level : Option Nat} {lines : List Line} {nodes : List Node}
    (h : Reads level lines nodes) {site : CallSite} (before : List Line)
    (member : site ∈ among before.length nodes) :
    ∃ front line body rest kids, before ++ lines = front ++ line :: (body ++ rest) ∧
      site.callLine = front.length ∧ site.lineCount = body.length ∧
      site.body = .lineBreak :: kids ∧ Reads none body kids := by
  induction h generalizing before with
  | nil => cases member
  | @blank line lines nodes _ _ ih =>
      rw [among_lineBreak] at member
      have others := ih (before ++ [line]) (by simpa using member)
      rwa [List.append_assoc, List.singleton_append] at others
  | @block level line head body rest nodes siblings opens deeper kept nested more _ ih =>
      have size : Node.lineBreaksIn (.lineBreak :: nodes) = body.length + 1 :=
        Fills.lineBreaksIn_cons ⟨kept, nested⟩
      have next : before.length + (body.length + 1) = (before ++ line :: body).length := by
        rw [List.length_append, List.length_cons]
      have later : site ∈ among (before.length + (body.length + 1)) siblings → _ := fun member =>
        ih (before ++ line :: body) (next ▸ member)
      rw [List.append_assoc, List.cons_append] at later
      cases head with
      | markup kind text =>
          rw [among_markup, size] at member
          exact later member
      | call kind code =>
          rw [among_call, size] at member
          rcases List.mem_cons.mp member with rfl | member
          · exact ⟨before, line, body, rest, nodes, rfl, rfl, lineCount_eq size, rfl, nested rfl⟩
          · exact later member

/-- The children of a call, its own line break apart, are derived from the lines of its span. -/
theorem reads_span {source : String} {root : Node} {site : CallSite} (h : parse source = .ok root)
    (member : site ∈ topLevel root) :
    ∃ kids, site.body = .lineBreak :: kids ∧
      Reads none (((sourceLines source).drop site.bodyStart).take site.lineCount) kids := by
  obtain ⟨nodes, reads, rfl⟩ := parse_eq_ok_iff.mp h
  obtain ⟨front, line, body, rest, kids, split, first, count, whole, nested⟩ :=
    exists_of_mem_among reads [] member
  refine ⟨kids, whole, ?_⟩
  rw [List.nil_append] at split
  rw [bodyStart, first, count, split, drop_opening, List.take_left]
  exact nested

/-! ## Cutting it out -/

/-- The pieces of a source that the body of a call spans. -/
def bodyPieces (site : CallSite) (source : String) : List (List Char) :=
  ((pieces source.toList).drop site.bodyStart).take site.lineCount

/-- The pieces of a body do not depend on a byte-order mark. -/
theorem bodyPieces_eq (site : CallSite) (source : String) :
    bodyPieces site source =
      ((pieces (withoutByteOrderMark source.toList)).drop site.bodyStart).take site.lineCount := by
  rw [bodyPieces, bodyStart, Nat.add_comm, ← List.drop_drop, ← List.drop_drop,
    drop_pieces_withoutByteOrderMark]

theorem map_bodyPieces (site : CallSite) (source : String) :
    (bodyPieces site source).map Line.ofPiece =
      ((sourceLines source).drop site.bodyStart).take site.lineCount := by
  rw [bodyPieces_eq, sourceLines_eq, List.map_take, List.map_drop]

theorem toList_cut (site : CallSite) (width : Nat) (source : String) :
    (site.span.cut width source).toList =
      ((bodyPieces site source).map (outdent width)).flatten := by
  rw [Span.cut, String.toList_ofList, List.flatMap_def]
  rfl

/-- If the lines of a body are indented alike, the text that is cut out is a template, and its tree
has the children of the call without the first, the call's own line break.  The text must not begin
with a byte-order mark, and the last line of the source must have a newline or not be blank. -/
theorem parse_cut {source : String} {root : Node} {site : CallSite} {width : Nat}
    (h : parse source = .ok root) (member : site ∈ topLevel root)
    (uniform : Uniform width (bodyPieces site source))
    (unmarked : (site.span.cut width source).toList.head? ≠ some byteOrderMark)
    (ends : ∀ last ∈ (pieces source.toList).getLast?, '\n' ∉ last →
      (Line.ofPiece last).isBlank = false) :
    ∃ kids, site.body = .lineBreak :: kids ∧
      parse (site.span.cut width source) = .ok (.container kids) := by
  obtain ⟨kids, whole, reads⟩ := reads_span h member
  obtain ⟨R, order, corresponds⟩ := uniform.corresponds
  have cut : IsCut ((bodyPieces site source).map (outdent width)) := by
    apply isCut_map_outdent width (((isCut_pieces _).drop _).take _)
    intro piece inBody none
    have inSource := List.mem_of_mem_drop (List.mem_of_mem_take inBody)
    exact ends piece ((isCut_pieces _).getLast?_eq inSource none) none
  have unchanged : withoutByteOrderMark (site.span.cut width source).toList =
      (site.span.cut width source).toList := withoutByteOrderMark_eq_self unmarked
  have lines_eq : sourceLines (site.span.cut width source) =
      ((bodyPieces site source).map (outdent width)).map Line.ofPiece := by
    rw [sourceLines_eq, unchanged, toList_cut, cut.pieces_flatten]
  rw [← map_bodyPieces] at reads
  refine ⟨kids, whole, parse_eq_ok_iff.mpr ⟨kids, ?_, rfl⟩⟩
  rw [lines_eq]
  exact reads.relayout order .none corresponds

/-- The first call of the small template. -/
def sampleSite : CallSite where
  kind := .control
  code := "kss_block '1.1' do"
  body := [.lineBreak,
    .block (.markup .tag "button") [.lineBreak,
      .block (.markup .text "Go") [.lineBreak,
        .block (.markup .text "- now") [.lineBreak], .lineBreak]]]
  callLine := 2

/-- The body of the first call in the small template is a template by itself. -/
theorem parse_cut_sample :
    sampleSite ∈ topLevel sampleTree ∧
      sampleSite.span.cut 2 sample = "button\n  | Go\n    - now\n\n" ∧
      ∃ kids, sampleSite.body = .lineBreak :: kids ∧
        parse (sampleSite.span.cut 2 sample) = .ok (.container kids) := by
  have member : sampleSite ∈ topLevel sampleTree := by decide
  have uniform : Uniform 2 (bodyPieces sampleSite sample) := by decide +kernel
  have unmarked : (sampleSite.span.cut 2 sample).toList.head? ≠ some byteOrderMark := by
    decide +kernel
  have ends : ∀ last ∈ (pieces sample.toList).getLast?, '\n' ∉ last →
      (Line.ofPiece last).isBlank = false := by decide +kernel
  exact ⟨member, by decide +kernel, parse_cut parse_sample member uniform unmarked ends⟩

end Specimen.CallSite
