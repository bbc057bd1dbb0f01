/-
# Specimen.Proofs.Template.WellFormed — what the tree of a template looks like.

A line can only say what fits on it: no text in a tree has a newline, none ends in white space, and
what an indicator or an indentation would take does not stand at its start.  Blank lines leave line
breaks in front of the blocks below a node, never between them, because a blank line after a block
lies inside that block; only a verbatim block keeps them among its lines.  `WellFormed` puts this
together, without mention of lines or indentation, and the tree of every template is well-formed.
-/
import Specimen.Proofs.Template.Reading
import Specimen.Proofs.Text.Pieces
import Specimen.Proofs.Text.Trim
import Specimen.Proofs.Unicode.Class

namespace Specimen.Template

open Text Unicode

/-! ## Texts -/

/-- The text can end a line: it has no newline and no white space at its end. -/
structure IsRest (text : List Char) : Prop where
  oneLine : '\n' ∉ text
  ends : EndsPlain text

/-- The text can be the content of a line that is not blank: it can end a line, it is not empty, and
it starts neither with a blank nor with a tab. -/
structure IsContent (text : List Char) : Prop extends IsRest text where
  nonempty : text ≠ []
  starts : ∀ c ∈ text.head?, isIndentation c = false

/-- The characters that decide by themselves what a line is. -/
def indicators : List Char := ['=', '-', '|', '\'', '/', '<']

/-- The text names an engine: letters, numbers and low lines, then white space, if any, and a
colon. -/
def NamesEngine (text : List Char) : Prop :=
  ∃ name space, text = name ++ space ++ [':'] ∧ name ≠ [] ∧
    (∀ c ∈ name, isNameChar c = true) ∧ ∀ c ∈ space, isWhiteSpace c = true

/-- A line can say what the head says.  Code is there and has no white space around it; a comment
has none around it either; markup starts with its bracket; an engine's name is made of the
characters for it; and a tag is whatever is not taken for something else. -/
def Head.IsWritable : Head → Prop
  | .call _ code => IsRest code.toList ∧ code.toList ≠ [] ∧ StartsPlain code.toList
  | .markup .text text => IsRest text.toList
  | .markup .comment text => IsRest text.toList ∧ StartsPlain text.toList
  | .markup .html text => IsRest text.toList ∧ text.toList.head? = some '<'
  | .markup .embedded text => text.toList ≠ [] ∧ ∀ c ∈ text.toList, isNameChar c = true
  | .markup .tag text => IsContent text.toList ∧ (∀ c ∈ text.toList.head?, c ∉ indicators) ∧
      ¬ NamesEngine text.toList

/-! ## Trees -/

/-- A node that a verbatim block can keep: a line break, or the content of a line as text. -/
inductive IsKept : Node → Prop
  | lineBreak : IsKept .lineBreak
  | text {text : String} : IsContent text.toList → IsKept (.block (.markup .text text) [.lineBreak])

/-- A block that lines can make.  It has the line break of its own line; below it, a verbatim block
keeps line breaks and texts in any order, and any other block has line breaks and then blocks. -/
inductive IsBlock : Node → Prop
  | verbatim {head : Head} {kept : List Node} : head.IsWritable → head.isVerbatim = true →
      (∀ node ∈ kept, IsKept node) → IsBlock (.block head (.lineBreak :: kept))
  | interpreted {head : Head} {blocks : List Node} (blanks : Nat) : head.IsWritable →
      head.isVerbatim = false → (∀ block ∈ blocks, IsBlock block) →
      IsBlock (.block head (.lineBreak :: (List.replicate blanks .lineBreak ++ blocks)))

/-- A tree that is the tree of a template: line breaks and then blocks, in a container. -/
inductive WellFormed : Node → Prop
  | container {blocks : List Node} (blanks : Nat) : (∀ block ∈ blocks, IsBlock block) →
      WellFormed (.container (List.replicate blanks .lineBreak ++ blocks))

/-! ## Texts that come from lines -/

theorem isRest_nil : IsRest [] := ⟨List.not_mem_nil, endsPlain_nil⟩

theorem IsRest.of_suffix {a b : List Char} (rest : IsRest b) (suffix : a <:+ b) : IsRest a := by
  obtain ⟨front, rfl⟩ := suffix
  refine ⟨fun member => rest.oneLine (List.mem_append_right front member), ?_⟩
  by_cases nonempty : a = []
  · rw [nonempty]
    exact endsPlain_nil
  · exact (endsPlain_append nonempty).mp rest.ends

theorem isRest_trim {cs : List Char} (oneLine : '\n' ∉ cs) : IsRest (trim cs) :=
  ⟨fun member => oneLine (trim_subset cs member), endsPlain_trim cs⟩

theorem withoutBlank_suffix (cs : List Char) : withoutBlank cs <:+ cs := by
  unfold withoutBlank
  split
  · exact List.suffix_cons _ _
  · exact List.suffix_rfl

/-- Characters of a name are no white space. -/
theorem not_white_of_isNameChar {c : Char} (h : isNameChar c = true) : isWhiteSpace c = false := by
  rw [isNameChar, Bool.or_eq_true, decide_eq_true_eq] at h
  rcases h with alphanumeric | rfl
  · rw [← Bool.not_eq_true]
    intro white
    simp [isAlphanumeric_of_isWhiteSpace white] at alphanumeric
  · decide

theorem endsPlain_of_name {name : List Char} (h : ∀ c ∈ name, isNameChar c = true) :
    EndsPlain name :=
  fun c last => not_white_of_isNameChar (h c (List.mem_of_getLast? last))

theorem engineName?_eq_some_iff {content name : List Char} :
    engineName? content = some name ↔ name ≠ [] ∧ (∀ c ∈ name, isNameChar c = true) ∧
      ∃ space, content = name ++ space ++ [':'] ∧ ∀ c ∈ space, isWhiteSpace c = true := by
  constructor
  · intro h
    unfold engineName? at h
    split at h
    · next colon =>
      simp only [List.all_eq_true] at h
      split at h
      · next proper =>
        obtain rfl := Option.some.inj h
        obtain ⟨space, split, white⟩ := exists_white_trimEnd content.dropLast
        refine ⟨proper.1, proper.2, space, ?_, white⟩
        rw [← split, List.dropLast_append_getLast? _ colon]
      · contradiction
    · contradiction
  · rintro ⟨nonempty, named, space, rfl, white⟩
    have trimmed : trimEnd (name ++ space) = name := by
      rw [trimEnd_append white, trimEnd_eq_self (endsPlain_of_name named)]
    have proper : name ≠ [] ∧ name.all isNameChar = true := ⟨nonempty, List.all_eq_true.mpr named⟩
    rw [engineName?, List.getLast?_concat, if_pos rfl, List.dropLast_concat, trimmed]
    exact if_pos proper

theorem engineName?_eq_none_iff {content : List Char} :
    engineName? content = none ↔ ¬ NamesEngine content := by
  rw [Option.eq_none_iff_forall_ne_some]
  constructor
  · rintro none ⟨name, space, split, nonempty, named, white⟩
    exact none name (engineName?_eq_some_iff.mpr ⟨nonempty, named, space, split, white⟩)
  · intro none name found
    obtain ⟨nonempty, named, space, split, white⟩ := engineName?_eq_some_iff.mp found
    exact none ⟨name, space, split, nonempty, named, white⟩

theorem isWritable_of_ofCode {kind : CallKind} {rest : List Char} {head : Head}
    (oneLine : '\n' ∉ rest) (h : Head.ofCode kind rest = .ok head) : head.IsWritable := by
  unfold Head.ofCode at h
  split at h
  · contradiction
  · next code =>
    obtain rfl := Except.ok.inj h
    rw [Head.IsWritable, String.toList_ofList]
    exact ⟨isRest_trim oneLine, code, startsPlain_trim rest⟩

/-- Content gives a head that a line can say. -/
theorem isWritable_of_ofContent {content : List Char} {head : Head} (fits : IsContent content)
    (h : Head.ofContent content = .ok head) : head.IsWritable := by
  have oneLine_of {rest : List Char} (suffix : rest <:+ content) : '\n' ∉ rest :=
    (fits.toIsRest.of_suffix suffix).oneLine
  unfold Head.ofContent at h
  split at h
  · next rest => exact isWritable_of_ofCode (oneLine_of ⟨['=', '='], rfl⟩) h
  · next rest _ => exact isWritable_of_ofCode (oneLine_of ⟨['='], rfl⟩) h
  · next rest => exact isWritable_of_ofCode (oneLine_of ⟨['-'], rfl⟩) h
  · next rest =>
    obtain rfl := Except.ok.inj h
    rw [Head.IsWritable, String.toList_ofList]
    exact fits.toIsRest.of_suffix ((withoutBlank_suffix rest).trans (List.suffix_cons _ _))
  · next rest =>
    obtain rfl := Except.ok.inj h
    rw [Head.IsWritable, String.toList_ofList]
    exact fits.toIsRest.of_suffix ((withoutBlank_suffix rest).trans (List.suffix_cons _ _))
  · next rest =>
    obtain rfl := Except.ok.inj h
    rw [Head.IsWritable, String.toList_ofList]
    exact ⟨fits.toIsRest.of_suffix ((trimStart_suffix rest).trans (List.suffix_cons _ _)),
      startsPlain_trimStart rest⟩
  · next rest =>
    obtain rfl := Except.ok.inj h
    rw [Head.IsWritable, String.toList_ofList]
    exact ⟨fits.toIsRest, rfl⟩
  · next twice once control bar quote slash bracket =>
    split at h
    · next name found =>
      obtain rfl := Except.ok.inj h
      obtain ⟨nonempty, named, -⟩ := engineName?_eq_some_iff.mp found
      rw [Head.IsWritable, String.toList_ofList]
      exact ⟨nonempty, named⟩
    · next none =>
      obtain rfl := Except.ok.inj h
      rw [Head.IsWritable, String.toList_ofList]
      refine ⟨fits, ?_, engineName?_eq_none_iff.mp none⟩
      intro c first isIndicator
      obtain ⟨rest, rfl⟩ := List.head?_eq_some_iff.mp first
      simp only [indicators, List.mem_cons, List.not_mem_nil, or_false] at isIndicator
      rcases isIndicator with rfl | rfl | rfl | rfl | rfl | rfl
      · exact once rest rfl
      · exact control rest rfl
      · exact bar rest rfl
      · exact quote rest rfl
      · exact slash rest rfl
      · exact bracket rest rfl

/-! ## Lines that come from sources -/

/-- The content of the line has no newline and is trimmed on both sides, in front of indentation
only. -/
structure Line.IsClean (line : Line) : Prop where
  rest : IsRest line.content
  starts : ∀ c ∈ line.content.head?, isIndentation c = false

theorem Line.IsClean.content {line : Line} (clean : line.IsClean)
    (nonblank : line.isBlank = false) : IsContent line.content :=
  ⟨clean.rest, by simpa [Line.isBlank] using nonblank, clean.starts⟩

theorem isClean_ofChars {text : List Char} (oneLine : '\n' ∉ text) :
    (Line.ofChars text).IsClean := by
  have inside : trimEnd (text.dropWhile isIndentation) ⊆ text :=
    List.Subset.trans (trimEnd_isPrefix _).subset (List.dropWhile_suffix _).subset
  refine ⟨⟨fun member => oneLine (inside member), endsPlain_trimEnd _⟩, ?_⟩
  intro c first
  exact not_of_mem_head?_dropWhile (mem_head?_of_isPrefix (trimEnd_isPrefix _) first)

theorem isClean_of_mem_sourceLines {source : String} {line : Line}
    (member : line ∈ sourceLines source) : line.IsClean := by
  obtain ⟨text, inLines, rfl⟩ := List.mem_map.mp member
  exact isClean_ofChars (not_mem_of_mem_lines inLines)

theorem isKept_keptNode {line : Line} (clean : line.IsClean) : IsKept line.keptNode := by
  unfold Line.keptNode
  split
  · exact .lineBreak
  · next nonblank =>
    rw [Bool.not_eq_true] at nonblank
    refine .text ?_
    rw [String.toList_ofList]
    exact clean.content nonblank

/-! ## Trees that come from lines -/

/-- The nodes below a block, or at the top level: line breaks, and then blocks.  Once the level of
the blocks is fixed, there are no more line breaks. -/
theorem Reads.exists_blocks {level : Option Nat} {lines : List Line} {nodes : List Node}
    (reads : Reads level lines nodes) (clean : ∀ line ∈ lines, line.IsClean) :
    ∃ blanks blocks, nodes = List.replicate blanks .lineBreak ++ blocks ∧
      (∀ block ∈ blocks, IsBlock block) ∧ (level ≠ none → blanks = 0) := by
  induction reads with
  | nil => exact ⟨0, [], rfl, nofun, fun _ => rfl⟩
  | blank _ _ ih =>
      obtain ⟨blanks, blocks, rfl, proper, -⟩ :=
        ih fun line member => clean line (List.mem_cons_of_mem _ member)
      exact ⟨blanks + 1, blocks, rfl, proper, fun fixed => absurd rfl fixed⟩
  | @block level line head body rest nodes siblings opens _ kept _ _ ihBody ihRest =>
      have writable : head.IsWritable := isWritable_of_ofContent
        ((clean line List.mem_cons_self).content opens.nonblank) opens.head_eq
      have cleanBody : ∀ line ∈ body, line.IsClean := fun line member =>
        clean line (List.mem_cons_of_mem _ (List.mem_append_left rest member))
      have cleanRest : ∀ line ∈ rest, line.IsClean := fun line member =>
        clean line (List.mem_cons_of_mem _ (List.mem_append_right body member))
      have first : IsBlock (.block head (.lineBreak :: nodes)) := by
        cases kind : head.isVerbatim with
        | true =>
            refine .verbatim writable kind ?_
            rw [kept kind]
            intro node member
            obtain ⟨line, inBody, rfl⟩ := List.mem_map.mp member
            exact isKept_keptNode (cleanBody line inBody)
        | false =>
            obtain ⟨blanks, blocks, rfl, proper, -⟩ := ihBody kind cleanBody
            exact .interpreted blanks writable kind proper
      -- the block has fixed the level for what follows it, so no line break comes between
      obtain ⟨blanks, blocks, rfl, proper, fixed⟩ := ihRest cleanRest
      obtain rfl := fixed (Option.some_ne_none _)
      refine ⟨0, _, rfl, ?_, fun _ => rfl⟩
      intro block member
      rcases List.mem_cons.mp member with rfl | later
      · exact first
      · exact proper block later

/-- The tree of a template is well-formed. -/
theorem wellFormed_of_parse {source : String} {root : Node} (h : parse source = .ok root) :
    WellFormed root := by
  obtain ⟨nodes, reads, rfl⟩ := parse_eq_ok_iff.mp h
  obtain ⟨blanks, blocks, rfl, proper, -⟩ :=
    reads.exists_blocks fun _ => isClean_of_mem_sourceLines
  exact .container blanks proper

end Specimen.Template
