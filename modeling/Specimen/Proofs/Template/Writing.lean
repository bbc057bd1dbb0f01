/-
# Specimen.Proofs.Template.Writing — every well-formed tree is the tree of a template.

A well-formed tree can be written down again.  Each block gets a line of its own and its children
one blank more of indentation; a line break becomes a blank line, except that the first one of a
block is the end of the block's own line; and what a verbatim block keeps is written as it was kept.
Reading the result gives the same tree, so the well-formed trees are exactly the trees of sources.

The writing is one way among many.  It always puts a byte-order mark in front, because the content
of the first line may start with one, and reading takes the first mark away.
-/
import Specimen.Proofs.Template.Pieces
import Specimen.Proofs.Template.WellFormed

namespace Specimen.Template

open Text Unicode

/-! ## Heads -/

/-- The content of a line that says this head.  A text without characters has no blank after its
bar, since the blank would not outlive the trim at the end of the line. -/
def Head.content : Head → List Char
  | .call .control code => '-' :: ' ' :: code.toList
  | .call .output code => '=' :: ' ' :: code.toList
  | .call .unescapedOutput code => '=' :: '=' :: ' ' :: code.toList
  | .markup .text text => if text.toList = [] then ['|'] else '|' :: ' ' :: text.toList
  | .markup .comment text => '/' :: text.toList
  | .markup .html text => text.toList
  | .markup .embedded text => text.toList ++ [':']
  | .markup .tag text => text.toList

/-- Where the front can start a line and the rest can end it, both together are its content. -/
theorem IsRest.isContent_append {text : List Char} (rest : IsRest text) (first : Char)
    (front : List Char) (starts : isIndentation first = false) (oneLine : '\n' ∉ first :: front)
    (ends : text = [] → EndsPlain (first :: front)) : IsContent (first :: front ++ text) := by
  refine ⟨⟨?_, ?_⟩, List.cons_ne_nil _ _, ?_⟩
  · intro newline
    rcases List.mem_append.mp newline with inFront | inText
    · exact oneLine inFront
    · exact rest.oneLine inText
  · by_cases empty : text = []
    · rw [empty, List.append_nil]
      exact ends empty
    · exact (endsPlain_append empty).mpr rest.ends
  · rintro c ⟨⟩
    exact starts

/-- Content that starts with no indicator names an engine or is a tag. -/
theorem ofContent_of_plain {content : List Char} (plain : ∀ c ∈ content.head?, c ∉ indicators) :
    Head.ofContent content =
      match engineName? content with
      | some name => .ok (.markup .embedded (String.ofList name))
      | none => .ok (.markup .tag (String.ofList content)) := by
  unfold Head.ofContent
  split
  case h_8 => rfl
  all_goals exact absurd (by decide) (plain _ rfl)

theorem ofCode_blank {kind : CallKind} {code : String} (rest : IsRest code.toList)
    (nonempty : code.toList ≠ []) (starts : StartsPlain code.toList) :
    Head.ofCode kind (' ' :: code.toList) = .ok (.call kind code) := by
  have white : ∀ c ∈ [' '], isWhiteSpace c = true := List.forall_mem_singleton.mpr (by decide)
  have trimmed : trim ([' '] ++ code.toList) = code.toList := trim_append white starts rest.ends
  rw [List.singleton_append] at trimmed
  rw [Head.ofCode, trimmed, if_neg nonempty, String.ofList_toList]

/-- Characters that decide what a line is do not occur in the names of engines. -/
theorem not_indicator_of_isNameChar {c : Char} (h : isNameChar c = true) : c ∉ indicators := by
  intro isIndicator
  simp only [indicators, List.mem_cons, List.not_mem_nil, or_false] at isIndicator
  rcases isIndicator with rfl | rfl | rfl | rfl | rfl | rfl <;> exact absurd h (by decide)

theorem not_indentation_of_isNameChar {c : Char} (h : isNameChar c = true) :
    isIndentation c = false := by
  rw [← Bool.not_eq_true]
  intro indentation
  have white := isWhiteSpace_of_isIndentation indentation
  simp [not_white_of_isNameChar h] at white

/-- A head that can be said is said by its content. -/
theorem ofContent_content {head : Head} (writable : head.IsWritable) :
    Head.ofContent head.content = .ok head := by
  cases head with
  | call kind code =>
      obtain ⟨rest, nonempty, starts⟩ := writable
      cases kind with
      | control => exact ofCode_blank rest nonempty starts
      | output => exact ofCode_blank rest nonempty starts
      | unescapedOutput => exact ofCode_blank rest nonempty starts
  | markup kind text =>
      cases kind with
      | tag =>
          obtain ⟨-, plain, nameless⟩ := writable
          rw [Head.content, ofContent_of_plain plain, engineName?_eq_none_iff.mpr nameless,
            String.ofList_toList]
      | text =>
          rw [Head.content]
          split
          · next empty =>
            rw [← String.ofList_toList (s := text), empty]
            rfl
          · rw [Head.ofContent, withoutBlank, String.ofList_toList]
      | comment =>
          rw [Head.content, Head.ofContent, trimStart_eq_self writable.2, String.ofList_toList]
      | html =>
          obtain ⟨rest, bracket⟩ := List.head?_eq_some_iff.mp writable.2
          rw [Head.content, bracket, Head.ofContent, ← bracket, String.ofList_toList]
      | embedded =>
          obtain ⟨nonempty, named⟩ := writable
          have plain : ∀ c ∈ (text.toList ++ [':']).head?, c ∉ indicators := by
            rw [List.head?_append_of_ne_nil _ nonempty]
            exact fun c first => not_indicator_of_isNameChar (named c (List.mem_of_head? first))
          have found : engineName? (text.toList ++ [':']) = some text.toList :=
            engineName?_eq_some_iff.mpr ⟨nonempty, named, [], by simp, nofun⟩
          rw [Head.content, ofContent_of_plain plain, found]
          simp only [String.ofList_toList]

theorem isContent_content {head : Head} (writable : head.IsWritable) : IsContent head.content := by
  cases head with
  | call kind code =>
      obtain ⟨rest, nonempty, -⟩ := writable
      cases kind with
      | control =>
          exact rest.isContent_append '-' [' '] (by decide) (by decide)
            fun empty => absurd empty nonempty
      | output =>
          exact rest.isContent_append '=' [' '] (by decide) (by decide)
            fun empty => absurd empty nonempty
      | unescapedOutput =>
          exact rest.isContent_append '=' ['=', ' '] (by decide) (by decide)
            fun empty => absurd empty nonempty
  | markup kind text =>
      cases kind with
      | tag => exact writable.1
      | text =>
          rw [Head.content]
          split
          · exact isRest_nil.isContent_append '|' [] (by decide) (by decide)
              fun _ => endsPlain_singleton.mpr (by decide)
          · next nonempty =>
            exact writable.isContent_append '|' [' '] (by decide) (by decide)
              fun empty => absurd empty nonempty
      | comment =>
          exact writable.1.isContent_append '/' [] (by decide) (by decide)
            fun _ => endsPlain_singleton.mpr (by decide)
      | html =>
          obtain ⟨rest, bracket⟩ := writable
          obtain ⟨behind, shape⟩ := List.head?_eq_some_iff.mp bracket
          refine ⟨rest, ?_, ?_⟩
          · rw [Head.content, shape]
            exact List.cons_ne_nil _ _
          · intro c first
            obtain rfl := Option.some.inj (bracket.symm.trans first)
            decide
      | embedded =>
          obtain ⟨nonempty, named⟩ := writable
          have colon : IsRest [':'] := ⟨by decide, endsPlain_singleton.mpr (by decide)⟩
          have oneLine : '\n' ∉ text.toList := fun newline => absurd (named _ newline) (by decide)
          obtain ⟨first, behind, shape⟩ := List.exists_cons_of_ne_nil nonempty
          rw [shape] at named oneLine
          rw [Head.content, shape]
          have starts : isIndentation first = false :=
            not_indentation_of_isNameChar (named first List.mem_cons_self)
          exact colon.isContent_append first behind starts oneLine nofun

/-! ## Lines -/

/-- A blank line. -/
def Line.blank : Line := ⟨0, []⟩

/-- The line that a verbatim block keeps as this node. -/
def Node.keptLine (indent : Nat) : Node → Line
  | .block (.markup .text text) _ => ⟨indent, text.toList⟩
  | _ => .blank

mutual

/-- The lines that make this node, if its own line has this indentation.  The line break that a
block starts with is the end of the block's own line. -/
def Node.toLines (indent : Nat) : Node → List Line
  | .lineBreak => [.blank]
  | .block head nodes =>
    ⟨indent, head.content⟩ ::
      if head.isVerbatim then (nodes.map (Node.keptLine (indent + 1))).tail
      else (Node.toLinesIn (indent + 1) nodes).tail
  | .container nodes => Node.toLinesIn indent nodes

/-- The lines that make these nodes, one after the other. -/
def Node.toLinesIn (indent : Nat) : List Node → List Line
  | [] => []
  | node :: nodes => Node.toLines indent node ++ Node.toLinesIn indent nodes

end

theorem toLines_of_verbatim {head : Head} (verbatim : head.isVerbatim = true) (indent : Nat)
    (kept : List Node) :
    (Node.block head (.lineBreak :: kept)).toLines indent =
      ⟨indent, head.content⟩ :: kept.map (Node.keptLine (indent + 1)) := by
  rw [Node.toLines, if_pos verbatim]
  rfl

theorem toLines_of_interpreted {head : Head} (interpreted : head.isVerbatim = false)
    (indent : Nat) (nodes : List Node) :
    (Node.block head (.lineBreak :: nodes)).toLines indent =
      ⟨indent, head.content⟩ :: Node.toLinesIn (indent + 1) nodes := by
  rw [Node.toLines, if_neg (by simp [interpreted])]
  rfl

theorem toLinesIn_eq_flatMap (indent : Nat) (nodes : List Node) :
    Node.toLinesIn indent nodes = nodes.flatMap (Node.toLines indent) := by
  induction nodes with
  | nil => rfl
  | cons node nodes ih => rw [Node.toLinesIn, ih, List.flatMap_cons]

/-- The line is as a source can have it, and, unless it is blank, indented at least this much. -/
structure Line.Fits (indent : Nat) (line : Line) : Prop where
  clean : line.IsClean
  within : line.isBlank = false → indent ≤ line.indent

theorem Line.Fits.mono {indent indent' : Nat} {line : Line} (fits : line.Fits indent')
    (le : indent ≤ indent') : line.Fits indent :=
  ⟨fits.clean, fun nonblank => Nat.le_trans le (fits.within nonblank)⟩

theorem fits_blank (indent : Nat) : Line.blank.Fits indent :=
  ⟨⟨isRest_nil, nofun⟩, nofun⟩

theorem fits_of_isContent {content : List Char} (fits : IsContent content) (indent : Nat) :
    (Line.mk indent content).Fits indent :=
  ⟨⟨fits.toIsRest, fits.starts⟩, fun _ => Nat.le_refl indent⟩

theorem IsKept.fits_keptLine {node : Node} (kept : IsKept node) (indent : Nat) :
    (node.keptLine indent).Fits indent := by
  cases kept with
  | lineBreak => exact fits_blank indent
  | text content => exact fits_of_isContent content indent

theorem IsKept.keptNode_keptLine {node : Node} (kept : IsKept node) (indent : Nat) :
    (node.keptLine indent).keptNode = node := by
  cases kept with
  | lineBreak => rfl
  | @text text content =>
      have nonblank : (Line.mk indent text.toList).isBlank = false := by
        simpa [Line.isBlank] using content.nonempty
      rw [Node.keptLine, Line.keptNode, if_neg (by simp [nonblank]), String.ofList_toList]

theorem fits_map_keptLine {kept : List Node} (proper : ∀ node ∈ kept, IsKept node)
    (indent : Nat) : ∀ line ∈ kept.map (Node.keptLine indent), line.Fits indent := by
  intro line member
  obtain ⟨node, inKept, rfl⟩ := List.mem_map.mp member
  exact (proper node inKept).fits_keptLine indent

theorem fits_toLinesIn {indent : Nat} {blocks : List Node} (blanks : Nat)
    (fits : ∀ block ∈ blocks, ∀ line ∈ block.toLines indent, line.Fits indent) :
    ∀ line ∈ Node.toLinesIn indent (List.replicate blanks .lineBreak ++ blocks),
      line.Fits indent := by
  intro line member
  rw [toLinesIn_eq_flatMap] at member
  obtain ⟨node, inNodes, inLines⟩ := List.mem_flatMap.mp member
  rcases List.mem_append.mp inNodes with isBreak | inBlocks
  · obtain rfl := List.eq_of_mem_replicate isBreak
    obtain rfl := List.mem_singleton.mp inLines
    exact fits_blank indent
  · exact fits node inBlocks line inLines

theorem IsBlock.fits_toLines {block : Node} (proper : IsBlock block) (indent : Nat) :
    ∀ line ∈ block.toLines indent, line.Fits indent := by
  induction proper generalizing indent with
  | verbatim writable verbatim proper =>
      rw [toLines_of_verbatim verbatim]
      intro line member
      rcases List.mem_cons.mp member with rfl | inBody
      · exact fits_of_isContent (isContent_content writable) indent
      · exact (fits_map_keptLine proper (indent + 1) line inBody).mono (Nat.le_succ indent)
  | interpreted blanks writable interpreted _ ih =>
      rw [toLines_of_interpreted interpreted]
      intro line member
      rcases List.mem_cons.mp member with rfl | inBody
      · exact fits_of_isContent (isContent_content writable) indent
      · have fits := fits_toLinesIn blanks fun block inBlocks => ih block inBlocks (indent + 1)
        exact (fits line inBody).mono (Nat.le_succ indent)

/-! ## Reading the lines -/

/-- The lines of the block give the block, next to any siblings that follow.  It does not matter
whether earlier siblings have fixed the level already. -/
def ReadsBack (indent : Nat) (block : Node) : Prop :=
  ∀ {level : Option Nat} {rest : List Line} {siblings : List Node},
    (∀ fixed ∈ level, indent = fixed) → Reads (some indent) rest siblings →
    Reads level (block.toLines indent ++ rest) (block :: siblings)

theorem reads_toLinesIn_blocks {indent : Nat} {blocks : List Node}
    (back : ∀ block ∈ blocks, ReadsBack indent block) {level : Option Nat}
    (free : ∀ fixed ∈ level, indent = fixed) :
    Reads level (Node.toLinesIn indent blocks) blocks := by
  -- the first block may find the level open; after it, the level is fixed
  induction blocks generalizing level with
  | nil => exact .nil
  | cons block blocks ih =>
      have others : Reads (some indent) (Node.toLinesIn indent blocks) blocks :=
        ih (fun block member => back block (List.mem_cons_of_mem _ member)) (by simp)
      exact back block List.mem_cons_self free others

theorem reads_toLinesIn {indent : Nat} {blocks : List Node} (blanks : Nat)
    (back : ∀ block ∈ blocks, ReadsBack indent block) :
    Reads none (Node.toLinesIn indent (List.replicate blanks .lineBreak ++ blocks))
      (List.replicate blanks .lineBreak ++ blocks) := by
  induction blanks with
  | zero => exact reads_toLinesIn_blocks back nofun
  | succ blanks ih => exact .blank rfl ih

theorem deeper_of_fits {indent : Nat} {lines : List Line}
    (fits : ∀ line ∈ lines, line.Fits (indent + 1)) : Deeper indent lines :=
  fun line member => (fits line member).within

/-- What a verbatim block keeps is kept again. -/
theorem map_keptNode_keptLine {kept : List Node} (proper : ∀ node ∈ kept, IsKept node)
    (indent : Nat) : (kept.map (Node.keptLine indent)).map Line.keptNode = kept := by
  rw [List.map_map, List.map_congr_left (g := id), List.map_id]
  exact fun node member => (proper node member).keptNode_keptLine indent

theorem opens_of_isWritable {head : Head} (writable : head.IsWritable) {indent : Nat}
    {level : Option Nat} (free : ∀ fixed ∈ level, indent = fixed) :
    Opens level ⟨indent, head.content⟩ head where
  nonblank := by simpa [Line.isBlank] using (isContent_content writable).nonempty
  atLevel := free
  head_eq := ofContent_content writable

/-- A block that lines can make is read from the lines that are written for it. -/
theorem IsBlock.readsBack {block : Node} (proper : IsBlock block) (indent : Nat) :
    ReadsBack indent block := by
  induction proper generalizing indent with
  | @verbatim head kept writable verbatim proper =>
      intro level rest siblings free more
      rw [toLines_of_verbatim verbatim]
      have deeper : Deeper indent (kept.map (Node.keptLine (indent + 1))) :=
        deeper_of_fits (fits_map_keptLine proper (indent + 1))
      -- the body is kept whatever it says; only that it is indented deeper matters
      refine .block (opens_of_isWritable writable free) deeper ?_ ?_ more
      · exact fun _ => (map_keptNode_keptLine proper (indent + 1)).symm
      · simp [verbatim]
  | @interpreted head blocks blanks writable interpreted proper ih =>
      intro level rest siblings free more
      rw [toLines_of_interpreted interpreted]
      have deeper : Deeper indent
          (Node.toLinesIn (indent + 1) (List.replicate blanks .lineBreak ++ blocks)) :=
        deeper_of_fits (fits_toLinesIn blanks fun block member =>
          (proper block member).fits_toLines (indent + 1))
      refine .block (opens_of_isWritable writable free) deeper ?_ ?_ more
      · simp [interpreted]
      · exact fun _ => reads_toLinesIn blanks fun block member => ih block member (indent + 1)

/-! ## Sources -/

/-- The text of a line, without its newline. -/
def Line.toChars (line : Line) : List Char := List.replicate line.indent ' ' ++ line.content

/-- The source with these lines. -/
def ofLines (lines : List Line) : String :=
  String.ofList (byteOrderMark :: (lines.map Line.toChars).flatMap (· ++ ['\n']))

/-- A source for the tree. -/
def Node.toSource (root : Node) : String := ofLines (root.toLines 0)

theorem ofChars_toChars {line : Line} (clean : line.IsClean) :
    Line.ofChars line.toChars = line := by
  have indentation : ∀ c ∈ List.replicate line.indent ' ', isIndentation c = true := by
    intro c member
    rw [List.eq_of_mem_replicate member]
    rfl
  rw [Line.toChars, Line.ofChars_append indentation clean.starts, List.length_replicate,
    trimEnd_eq_self clean.rest.ends]

theorem not_mem_toChars {line : Line} (clean : line.IsClean) : '\n' ∉ line.toChars := by
  intro newline
  rcases List.mem_append.mp newline with inIndent | inContent
  · exact absurd (List.eq_of_mem_replicate inIndent) (by decide)
  · exact clean.rest.oneLine inContent

theorem sourceLines_ofLines {lines : List Line} (clean : ∀ line ∈ lines, line.IsClean) :
    sourceLines (ofLines lines) = lines := by
  have oneLine : ∀ text ∈ lines.map Line.toChars, '\n' ∉ text := by
    intro text member
    obtain ⟨line, inLines, rfl⟩ := List.mem_map.mp member
    exact not_mem_toChars (clean line inLines)
  rw [sourceLines_eq, ofLines, String.toList_ofList, withoutByteOrderMark, if_pos rfl,
    pieces_flatMap_newline oneLine, List.map_map, List.map_map, List.map_congr_left (g := id),
    List.map_id]
  intro line member
  have text := withoutNewline_ended (not_mem_toChars (clean line member))
  rw [Function.comp_apply, Function.comp_apply, Line.ofPiece, text]
  exact ofChars_toChars (clean line member)

/-! ## Trees of templates -/

/-- A well-formed tree is the tree of the source that is written for it. -/
theorem parse_toSource {root : Node} (wellFormed : WellFormed root) :
    parse root.toSource = .ok root := by
  cases wellFormed with
  | @container blocks blanks proper =>
      have clean : ∀ line ∈ Node.toLinesIn 0 (List.replicate blanks .lineBreak ++ blocks),
          line.IsClean := by
        intro line member
        have fits := fits_toLinesIn blanks fun block inBlocks =>
          (proper block inBlocks).fits_toLines 0
        exact (fits line member).clean
      refine parse_eq_ok_iff.mpr ⟨_, ?_, rfl⟩
      rw [Node.toSource, Node.toLines, sourceLines_ofLines clean]
      exact reads_toLinesIn blanks fun block member => (proper block member).readsBack 0

example : (Node.container [.lineBreak, .block (.markup .tag "p") [.lineBreak, .lineBreak,
    .block (.markup .text " a") [.lineBreak, .lineBreak,
      .block (.markup .text "- b") [.lineBreak]]]]).toSource =
    "\uFEFF\np\n\n |  a\n\n  - b\n" := by decide

/-- A tree is the tree of some source exactly if it is well-formed. -/
theorem parse_image (root : Node) : (∃ source, parse source = .ok root) ↔ WellFormed root := by
  constructor
  · rintro ⟨source, h⟩
    exact wellFormed_of_parse h
  · exact fun wellFormed => ⟨root.toSource, parse_toSource wellFormed⟩

end Specimen.Template
