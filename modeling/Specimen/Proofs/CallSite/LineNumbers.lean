/-
# Specimen.Proofs.CallSite.LineNumbers — the lines of a tree and the pieces of a file.

A call site counts lines by the line breaks in a tree, and the tree was made from the lines of a
text without its byte-order mark.  An extraction counts the pieces of the text as it is read from
the file.  `lineNumbers_agree` says that the two count alike: the piece with the number of a call
holds its code, the pieces of its span are all there, and they are the lines that have their line
breaks in the body of the call.
-/
import Specimen.Proofs.CallSite.Body
import Specimen.Proofs.CallSite.Concatenation
import Specimen.Proofs.Cache.Template
import Specimen.Proofs.Template.SourceMap
import Specimen.Proofs.Text.Trim

namespace Specimen.CallSite

open Unicode Text Template

/-! ## Call sites as blocks of the tree -/

/-- A call site is a block among the nodes, and the line breaks before it are those before its
line. -/
theorem occurs_of_mem_among {nodes : List Node} {line : Nat} {site : CallSite}
    (member : site ∈ among line nodes) :
    ∃ k, site.callLine = line + k ∧
      Occurs nodes k (.block (.call site.kind site.code) site.body) := by
  induction nodes generalizing line with
  | nil => cases member
  | cons node nodes ih =>
      rw [among_cons, List.mem_append] at member
      rcases member with here | later
      · rcases node with _ | ⟨⟨kind, code⟩ | _, body⟩ | _
        · cases here
        · obtain rfl := List.mem_singleton.mp here
          exact ⟨0, rfl, .here⟩
        · cases here
        · cases here
      · obtain ⟨k, place, occurs⟩ := ih later
        exact ⟨node.lineBreaks + k, by rw [place, Nat.add_assoc], .after occurs⟩

theorem spansLines_of_mem_topLevel {source : String} {root : Node} {site : CallSite}
    (h : parse source = .ok root) (member : site ∈ topLevel root) :
    SpansLines (sourceLines source) site.callLine (.call site.kind site.code) site.body := by
  obtain ⟨k, place, occurs⟩ := occurs_of_mem_among member
  rw [Nat.zero_add] at place
  rw [place]
  exact spansLines_of_occurs h occurs

/-- The body of a call reaches no further than the source. -/
theorem bodyEnd_le {source : String} {root : Node} {site : CallSite} (h : parse source = .ok root)
    (member : site ∈ topLevel root) :
    site.bodyStart + site.lineCount ≤ (sourceLines source).length := by
  obtain ⟨nodes, reads, rfl⟩ := parse_eq_ok_iff.mp h
  obtain ⟨front, line, body, rest, _, split, first, count, _, _⟩ :=
    exists_of_mem_among reads [] member
  rw [List.nil_append] at split
  rw [bodyStart, first, count, split]
  simp only [List.length_append, List.length_cons]
  omega

/-! ## Code in a piece -/

/-- White space behind a line of code is not part of the code. -/
theorem shownCode?_append {content space : List Char} {code : String}
    (white : ∀ c ∈ space, isWhiteSpace c = true) (shown : shownCode? content = some code) :
    shownCode? (content ++ space) = some code := by
  unfold shownCode? at shown
  split at shown
  · next rest => rw [← shown, ← trim_append_white white rest]; rfl
  · next rest once =>
    rw [← shown, ← trim_append_white white rest, List.cons_append]
    apply shownCode?.eq_2
    intro more twice
    cases rest with
    | nil =>
        obtain rfl : space = '=' :: more := twice
        have isWhite := white '=' List.mem_cons_self
        revert isWhite
        decide
    | cons c rest =>
        obtain ⟨rfl, -⟩ := List.cons.inj twice
        exact once rest rfl
  · next rest => rw [← shown, ← trim_append_white white rest]; rfl
  · contradiction

/-- The code of a line is found in its piece as it stands, behind the indentation. -/
theorem shownCode?_of_ofPiece {ps : List (List Char)} (cut : IsCut ps) {piece : List Char}
    (member : piece ∈ ps) {code : String}
    (shown : shownCode? (Line.ofPiece piece).content = some code) :
    shownCode? (piece.dropWhile isIndentation) = some code := by
  -- the content is what is left of the line without the white space at its end
  let text := (withoutNewline piece).dropWhile isIndentation
  have inLine : shownCode? text = some code := by
    obtain ⟨space, whole, white⟩ := exists_white_trimEnd text
    rw [whole]
    exact shownCode?_append white shown
  rcases cut.eq_withoutNewline member with same | ended
  · rwa [same]
  · have nonempty : text ≠ [] := by
      intro none
      rw [none] at inLine
      contradiction
    have newline : ∀ c ∈ ['\n'], isWhiteSpace c = true := by
      intro c member
      obtain rfl := List.mem_singleton.mp member
      decide
    rw [ended, List.dropWhile_append, if_neg (mt List.isEmpty_iff.mp nonempty)]
    exact shownCode?_append newline inLine

/-! ## Line numbers -/

/-- The numbers that a call site has from the tree are numbers of pieces of the source. -/
structure LinesAgree (source : String) (site : CallSite) : Prop where
  /-- No piece of the span is missing. -/
  fits : site.bodyStart + site.lineCount ≤ (pieces source.toList).length
  /-- The first piece, which can carry the byte-order mark, is in no span. -/
  notFirst : 0 < site.span.startLine
  /-- The piece with the number of the call holds its code. -/
  code : ∃ piece, (pieces source.toList)[site.callLine]? = some piece ∧
    shownCode? ((unmarked site.callLine piece).dropWhile isIndentation) = some site.code
  /-- The call is the block of its line, and its line breaks are those of this line and of the lines
  of the span. -/
  node_eq : .block (.call site.kind site.code) site.body = node (sourceLines source) site.callLine
  markers_eq : markers (sourceLines source) site.callLine =
    site.callLine :: List.range' site.bodyStart site.lineCount
  /-- The pieces of the span are, but for their ends, the lines with these numbers. -/
  bodyLines : (bodyPieces site source).map withoutLineEnd =
    ((lines (withoutByteOrderMark source.toList)).drop site.bodyStart).take site.lineCount

theorem length_sourceLines_le (source : String) :
    (sourceLines source).length ≤ (pieces source.toList).length := by
  rw [sourceLines_eq, List.length_map]
  by_contra more
  rw [Nat.not_le] at more
  obtain ⟨raw, found, -⟩ :=
    getElem?_pieces_of_withoutByteOrderMark (List.getElem?_eq_getElem more)
  rw [List.getElem?_eq_none (Nat.le_refl _)] at found
  contradiction

theorem exists_piece_of_code {source : String} {root : Node} {site : CallSite}
    (h : parse source = .ok root) (member : site ∈ topLevel root) :
    ∃ piece, (pieces source.toList)[site.callLine]? = some piece ∧
      shownCode? ((unmarked site.callLine piece).dropWhile isIndentation) = some site.code := by
  have spans := spansLines_of_mem_topLevel h member
  have inside : site.callLine < (sourceLines source).length := by
    have le := bodyEnd_le h member
    rw [bodyStart] at le
    omega
  have shown : shownCode? (lineAt (sourceLines source) site.callLine).content = some site.code := by
    rcases spans.given with ⟨-, opens⟩ | ⟨-, -, text⟩
    · exact shownCode?_of_ofContent opens
    · contradiction
  rw [lineAt_of_lt inside] at shown
  simp only [sourceLines_eq, List.getElem_map] at shown
  rw [sourceLines_eq, List.length_map] at inside
  obtain ⟨raw, found, same⟩ :=
    getElem?_pieces_of_withoutByteOrderMark (List.getElem?_eq_getElem inside)
  refine ⟨raw, found, ?_⟩
  rw [same]
  exact shownCode?_of_ofPiece (isCut_pieces _) (List.getElem_mem inside) shown

theorem linesAgree_of_mem_topLevel {source : String} {root : Node} {site : CallSite}
    (h : parse source = .ok root) (member : site ∈ topLevel root) : LinesAgree source site := by
  have spans := spansLines_of_mem_topLevel h member
  refine ⟨?_, Nat.succ_pos _, exists_piece_of_code h member, spans.node_eq, ?_, ?_⟩
  · exact (bodyEnd_le h member).trans (length_sourceLines_le source)
  · rw [spans.markers_eq, spans.unsaturated]
    rfl
  · rw [bodyPieces_eq, lines, List.map_take, List.map_drop]

theorem mem_topLevel_of_locate {root : Node} {query : Query} {site : CallSite}
    (found : locate root query = some site) : site ∈ topLevel root :=
  List.mem_of_find?_eq_some found

theorem mem_topLevel_of_mem_list {root : Node} {method : String} {entry : String × CallSite}
    (member : entry ∈ list root method) : entry.2 ∈ topLevel root := by
  obtain ⟨site, inside, found⟩ := List.mem_filterMap.mp member
  obtain ⟨argument, -, rfl⟩ := Option.map_eq_some_iff.mp found
  exact inside

/-! ## Extraction -/

/-- What an extraction gives for a template whose file has not changed since its tree was kept, if
it is kept at all. -/
theorem extract_of_unchanged {files : Source} {config : Config} {path : Path} {cache : Cache}
    {source : String} {root : Node} {query : Query} {site : CallSite}
    (read : files.read path = .ok source) (parsed : parse source = .ok root)
    (unchanged : ∀ kept, cache.find? path = some kept → kept = root)
    (found : locate root query = some site) :
    ((extract files config path query).run.run cache).1 =
      .ok ⟨site.span, site.span.cut config.indentWidth source⟩ := by
  have tree : ∃ after, (Cache.template files path).run.run cache = (.ok root, after) := by
    cases kept : cache.find? path with
    | some tree => exact ⟨_, unchanged tree kept ▸ Cache.template_of_kept kept⟩
    | none =>
        exact ⟨_, Cache.template_of_parsed kept (parseFile_eq_ok_iff.mpr ⟨source, read, parsed⟩)⟩
  obtain ⟨after, tree⟩ := tree
  have located : siteOf path query (.ok root) = .ok site := by rw [siteOf, found]
  rw [extract, run_bind, findSite_run, tree, Prod.map_apply, located]
  simp only [run_bind, extractSpan_run, readText_eq_ok_iff.mpr read]
  rfl

/-- The call sites of a template have line numbers that are right for the file it was read from,
with or without a byte-order mark.  So, as long as the file is what it was when its tree was kept,
an extraction gives the pieces of the span, all of them, each with one level of indentation taken
off. -/
theorem lineNumbers_agree {source : String} {root : Node} (h : parse source = .ok root) :
    (∀ method, ∀ entry ∈ list root method, LinesAgree source entry.2) ∧
      ∀ query site, locate root query = some site → LinesAgree source site ∧
        ∀ (files : Source) (config : Config) (path : Path) (cache : Cache),
          files.read path = .ok source → (∀ kept, cache.find? path = some kept → kept = root) →
          ((extract files config path query).run.run cache).1 =
            .ok ⟨site.span, String.ofList ((bodyPieces site source).flatMap
              (outdent config.indentWidth))⟩ := by
  refine ⟨?_, ?_⟩
  · intro method entry member
    exact linesAgree_of_mem_topLevel h (mem_topLevel_of_mem_list member)
  · intro query site found
    refine ⟨linesAgree_of_mem_topLevel h (mem_topLevel_of_locate found), ?_⟩
    intro files config path cache read unchanged
    exact extract_of_unchanged read h unchanged found

/-- A byte-order mark in front of the call, line ends of two characters, a blank line, and a last
line that has no end. -/
theorem lineNumbers_agree_marked :
    let source := "\uFEFF- kss_block 'a' do\r\n\tp x\r\n\r\n  | y"
    let body : List Node := [.lineBreak, .block (.markup .tag "p x") [.lineBreak, .lineBreak,
      .block (.markup .text "y") [.lineBreak]]]
    let root : Node := .container [.block (.call .control "kss_block 'a' do") body]
    let site : CallSite := ⟨.control, "kss_block 'a' do", body, 0⟩
    let files : Source := ⟨fun _ => .ok source, fun _ => []⟩
    parse source = .ok root ∧ locate root ⟨"kss_block", "a"⟩ = some site ∧
      LinesAgree source site ∧
      ((extract files {} ⟨"a.slim"⟩ ⟨"kss_block", "a"⟩).run.run {}).1 =
        .ok ⟨⟨1, 3⟩, "p x\r\n\r\n| y"⟩ := by
  intro source body root site files
  have parsed : parse source = .ok root := by decide +kernel
  have found : locate root ⟨"kss_block", "a"⟩ = some site := by decide +kernel
  obtain ⟨agree, extracted⟩ := (lineNumbers_agree parsed).2 _ _ found
  refine ⟨parsed, found, agree, ?_⟩
  rw [extracted files {} ⟨"a.slim"⟩ {} rfl fun kept none => by cases none]
  decide +kernel

end Specimen.CallSite
