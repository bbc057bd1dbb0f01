/-
# Specimen.Proofs.CallSite.Concatenation — the call sites of joined templates.

When one source follows another, their trees are joined, and with them their call sites: first those
of the one, then those of the other, as many lines further down as the first source has.
The main theorem says this together with what becomes of the faults.
-/
import Specimen.CallSite.Site
import Specimen.Proofs.Template.Concatenation
import Specimen.Proofs.Template.Reading

namespace Specimen

open Text Template

/-- The span, so many lines further down. -/
def Span.shift (count : Nat) (span : Span) : Span :=
  { span with startLine := span.startLine + count }

namespace CallSite

/-! ## Call sites further down -/

/-- The call site, so many lines further down. -/
def shift (count : Nat) (site : CallSite) : CallSite :=
  { site with callLine := site.callLine + count }

@[simp]
theorem span_shift (count : Nat) (site : CallSite) :
    (site.shift count).span = site.span.shift count := by
  rw [span, span, Span.shift, bodyStart, bodyStart, shift, Nat.add_right_comm]
  rfl

/-- Every node counts for the lines of those behind it, whether it is a call or not. -/
theorem among_cons (line : Nat) (node : Node) (nodes : List Node) :
    among line (node :: nodes) = among line [node] ++ among (line + node.lineBreaks) nodes := by
  rcases node with _ | ⟨_ | _, body⟩ | body <;> rfl

theorem among_append (line : Nat) (a b : List Node) :
    among line (a ++ b) = among line a ++ among (line + Node.lineBreaksIn a) b := by
  induction a generalizing line with
  | nil => rfl
  | cons node a ih =>
      rw [List.cons_append, among_cons, ih, among_cons line node a, List.append_assoc,
        Node.lineBreaksIn, Nat.add_assoc]

theorem among_shift (count line : Nat) (nodes : List Node) :
    among (line + count) nodes = (among line nodes).map (shift count) := by
  induction nodes generalizing line with
  | nil => rfl
  | cons node nodes ih =>
      have here : among (line + count) [node] = (among line [node]).map (shift count) := by
        rcases node with _ | ⟨_ | _, body⟩ | body <;> rfl
      rw [among_cons, among_cons line, here, Nat.add_right_comm, ih, List.map_append]

/-- The calls of joined trees, the second of which begins so many lines further down. -/
theorem list_append {a : List Node} {count : Nat} (size : Node.lineBreaksIn a = count)
    (b : List Node) (method : String) :
    list (.container (a ++ b)) method = list (.container a) method ++
      (list (.container b) method).map fun entry => (entry.1, entry.2.shift count) := by
  have later : among (0 + count) b = (among 0 b).map (shift count) := among_shift count 0 b
  simp only [list, topLevel, Node.children]
  rw [among_append, size, later, List.filterMap_append, List.filterMap_map, List.map_filterMap]
  congr 2
  funext site
  simp [shift, Option.map_map, Function.comp_def]

/-! ## Joined sources -/

/-- A second source behind a first one that is empty or ends with a newline, where the first is all
blank or the second starts with a line of its base indentation.  A fault in the first is the fault
of both.  Otherwise the second is parsed as if it stood alone: the trees are joined, its faults and
its call sites come as many lines further down as the first has. -/
theorem parse_append {first second : String} (ended : ∀ c ∈ first.toList.getLast?, c = '\n')
    (unmarked : second.toList.head? ≠ some byteOrderMark)
    (joins : Joins (sourceLines first) (sourceLines second)) :
    (∀ fault, parse first = .error fault → parse (first ++ second) = .error fault) ∧
      (∀ a b, parse first = .ok (.container a) → parse second = .ok (.container b) →
        parse (first ++ second) = .ok (.container (a ++ b)) ∧
          ∀ method, list (.container (a ++ b)) method = list (.container a) method ++
            (list (.container b) method).map fun entry =>
              (entry.1, entry.2.shift (sourceLines first).length)) ∧
      (∀ root fault, parse first = .ok root → parse second = .error fault →
        parse (first ++ second) = .error (fault.shift (sourceLines first).length)) ∧
      (∀ site : CallSite, (site.shift (sourceLines first).length).span =
        site.span.shift (sourceLines first).length) := by
  refine ⟨fun fault => parse_append_of_error ended unmarked, ?_, ?_, span_shift _⟩
  · intro a b parsed parsed'
    have size : Node.lineBreaksIn a = (sourceLines first).length := by
      obtain ⟨nodes, reads, same⟩ := parse_eq_ok_iff.mp parsed
      obtain rfl := Node.container.inj same
      exact reads.lineBreaksIn
    refine ⟨?_, list_append size b⟩
    rw [parse_append_of_ok ended unmarked joins parsed, parsed']
    rfl
  · intro root fault parsed failed
    rw [parse_append_of_ok ended unmarked joins parsed, failed]

/-- A text block and a blank line are still open where the second source starts. -/
theorem parse_append_sample :
    parse "- kss_block 'a' do\n  | Go\n\n= kss_block 'b' do\n  p\n" =
        .ok (.container
          [.block (.call .control "kss_block 'a' do") [.lineBreak,
            .block (.markup .text "Go") [.lineBreak, .lineBreak]],
          .block (.call .output "kss_block 'b' do") [.lineBreak,
            .block (.markup .tag "p") [.lineBreak]]]) ∧
      parse "- kss_block 'a' do\n  | Go\n\n= kss_block 'b' do\n -\n-" =
        .error (.missingCode 5 .control) := by
  have ended : ∀ c ∈ "- kss_block 'a' do\n  | Go\n\n".toList.getLast?, c = '\n' :=
    fun c last => (Option.some.inj last).symm
  have first : parse "- kss_block 'a' do\n  | Go\n\n" = .ok (.container
      [.block (.call .control "kss_block 'a' do") [.lineBreak,
        .block (.markup .text "Go") [.lineBreak, .lineBreak]]]) := by rfl
  constructor
  · have joins : Joins (sourceLines "- kss_block 'a' do\n  | Go\n\n")
        (sourceLines "= kss_block 'b' do\n  p\n") := .inr ⟨_, rfl, rfl, rfl⟩
    have second : parse "= kss_block 'b' do\n  p\n" = .ok (.container
        [.block (.call .output "kss_block 'b' do") [.lineBreak,
          .block (.markup .tag "p") [.lineBreak]]]) := by rfl
    exact ((parse_append ended (by decide) joins).2.1 _ _ first second).1
  · have joins : Joins (sourceLines "- kss_block 'a' do\n  | Go\n\n")
        (sourceLines "= kss_block 'b' do\n -\n-") := .inr ⟨_, rfl, rfl, rfl⟩
    have second : parse "= kss_block 'b' do\n -\n-" = .error (.missingCode 2 .control) := by rfl
    exact (parse_append ended (by decide) joins).2.2.1 _ _ first second

end CallSite

end Specimen
