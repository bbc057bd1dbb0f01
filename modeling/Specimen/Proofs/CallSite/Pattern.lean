/-
# Specimen.Proofs.CallSite.Pattern — what a query finds in a line of code, and what a listing reads.

A query and a listing search a line in the same way: from left to right they try every place where a
word begins or ends.  They differ in what they read there.  A query wants a call with its argument,
wherever it stands.  A listing takes the first call whose argument ends, whatever that argument is.

`matches_iff` and `argument?_eq_some_iff` say what the two find in terms of the line alone: how it
is put together from a method, white space, an argument and two quotes.
-/
import Specimen.CallSite.Pattern
import Specimen.Proofs.Text.Trim

namespace Specimen.CallSite

open Unicode Text

/-! ## Places in a line -/

/-- All the ways to cut a text in two, from left to right; `front` stands before the text. -/
def cuts (front : List Char) : List Char → List (List Char × List Char)
  | [] => [(front, [])]
  | c :: rest => (front, c :: rest) :: cuts (front ++ [c]) rest

theorem mem_cuts {front text before rest : List Char} :
    (before, rest) ∈ cuts front text ↔ ∃ between, before = front ++ between ∧
      between ++ rest = text := by
  induction text generalizing front with
  | nil =>
      rw [cuts, List.mem_singleton, Prod.mk.injEq]
      constructor
      · rintro ⟨rfl, rfl⟩
        exact ⟨[], (List.append_nil _).symm, rfl⟩
      · rintro ⟨between, rfl, none⟩
        obtain ⟨rfl, rfl⟩ := List.append_eq_nil_iff.mp none
        exact ⟨List.append_nil _, rfl⟩
  | cons c text ih =>
      rw [cuts, List.mem_cons, Prod.mk.injEq, ih]
      constructor
      · rintro (⟨rfl, rfl⟩ | ⟨between, rfl, rfl⟩)
        · exact ⟨[], (List.append_nil _).symm, rfl⟩
        · exact ⟨c :: between, List.append_assoc _ _ _, rfl⟩
      · rintro ⟨between, rfl, whole⟩
        cases between with
        | nil => exact .inl ⟨List.append_nil _, whole⟩
        | cons d between =>
            obtain ⟨rfl, others⟩ := List.cons.inj whole
            exact .inr ⟨between, (List.append_assoc front [d] between).symm, others⟩

theorem pairwise_cuts (front text : List Char) :
    (cuts front text).Pairwise fun a b => a.1.length < b.1.length := by
  induction text generalizing front with
  | nil => exact List.pairwise_singleton _ _
  | cons c text ih =>
      refine List.pairwise_cons.mpr ⟨?_, ih _⟩
      rintro ⟨before, rest⟩ later
      obtain ⟨between, rfl, -⟩ := mem_cuts.mp later
      simp only [List.length_append, List.length_singleton]
      omega

/-- The code is cut in two where a word begins or ends. -/
structure CutAt (code before rest : List Char) : Prop where
  whole : before ++ rest = code
  boundary : isWordBoundary before.getLast? rest = true

/-- Reads at a cut, if a word begins or ends there. -/
def readAt {α : Type} (read : List Char → Option α) (cut : List Char × List Char) : Option α :=
  if isWordBoundary cut.1.getLast? cut.2 then read cut.2 else none

section

variable {α : Type} {read : List Char → Option α} {code : List Char}

/-- The search tries one cut after the other. -/
theorem findAtBoundary_eq (read : List Char → Option α) (front text : List Char) :
    findAtBoundary read front.getLast? text = (cuts front text).findSome? (readAt read) := by
  induction text generalizing front with
  | nil =>
      rw [cuts, List.findSome?_singleton]
      rfl
  | cons c text ih =>
      have next := ih (front ++ [c])
      rw [List.getLast?_concat] at next
      rw [findAtBoundary, cuts, List.findSome?_cons, next]
      rfl

theorem readAt_eq_none_iff :
    (∀ cut ∈ cuts [] code, readAt read cut = none) ↔
      ∀ before rest, CutAt code before rest → read rest = none := by
  constructor
  · intro none before rest cut
    have here := none (before, rest) (mem_cuts.mpr ⟨before, rfl, cut.whole⟩)
    rwa [readAt, if_pos cut.boundary] at here
  · rintro none ⟨before, rest⟩ inside
    obtain ⟨_, rfl, whole⟩ := mem_cuts.mp inside
    rw [readAt]
    split
    · next boundary => exact none _ _ ⟨whole, boundary⟩
    · rfl

theorem findAtBoundary_eq_none_iff :
    findAtBoundary read none code = none ↔
      ∀ before rest, CutAt code before rest → read rest = none := by
  have search : findAtBoundary read none code = _ := findAtBoundary_eq read [] code
  rw [search, List.findSome?_eq_none_iff]
  exact readAt_eq_none_iff

/-- What a search finds is read at a cut, and nothing can be read at any cut before. -/
theorem exists_of_findAtBoundary {found : α} (h : findAtBoundary read none code = some found) :
    ∃ before rest, CutAt code before rest ∧ read rest = some found ∧
      ∀ before' rest', CutAt code before' rest' → read rest' ≠ none →
        before.length ≤ before'.length := by
  have search : findAtBoundary read none code = _ := findAtBoundary_eq read [] code
  rw [search, List.findSome?_eq_some_iff] at h
  obtain ⟨earlier, ⟨before, rest⟩, later, split, here, nothing⟩ := h
  have inside : (before, rest) ∈ cuts [] code := by
    rw [split]
    exact List.mem_append_right _ List.mem_cons_self
  obtain ⟨_, rfl, whole⟩ := mem_cuts.mp inside
  obtain ⟨boundary, read⟩ := Option.ite_none_right_eq_some.mp here
  refine ⟨_, rest, ⟨whole, boundary⟩, read, ?_⟩
  intro before' rest' cut found'
  by_contra shorter
  -- a shorter cut is one of the earlier ones, where nothing could be read
  have inside' : (before', rest') ∈ cuts [] code := mem_cuts.mpr ⟨before', rfl, cut.whole⟩
  have order := pairwise_cuts [] code
  rw [split, List.pairwise_append, List.pairwise_cons] at order
  rw [split, List.mem_append, List.mem_cons] at inside'
  rcases inside' with before | same | after
  · have none := nothing _ before
    rw [readAt, if_pos cut.boundary] at none
    exact found' none
  · cases same
    exact shorter (Nat.le_refl _)
  · exact shorter (Nat.le_of_lt (order.2.1.1 _ after))

end

/-! ## The parts of a call -/

theorem isWhiteSpace_of_isQuote {c : Char} (quote : isQuote c = true) : isWhiteSpace c = false := by
  simp only [isQuote, Bool.or_eq_true, decide_eq_true_eq] at quote
  rcases quote with rfl | rfl <;> decide

/-- A call of the method opens the text: its name, white space, and a quote, with `behind` behind
the quote. -/
structure Opens (method text : List Char) (quote : Char) (behind : List Char) : Prop where
  isQuote : isQuote quote = true
  text_eq : ∃ space, space ≠ [] ∧ (∀ c ∈ space, isWhiteSpace c = true) ∧
    text = method ++ (space ++ quote :: behind)

theorem openingQuote?_eq_some_iff {method text behind : List Char} {quote : Char} :
    openingQuote? method text = some (quote, behind) ↔ Opens method text quote behind := by
  unfold openingQuote?
  constructor
  · intro h
    split at h
    · contradiction
    · next rest named =>
      split at h
      · next spaced =>
        split at h
        · contradiction
        · next c behind' trimmed =>
          obtain ⟨quoted, same⟩ := Option.ite_none_right_eq_some.mp h
          obtain ⟨rfl, rfl⟩ := Prod.mk.inj (Option.some.inj same)
          refine ⟨quoted, rest.takeWhile isWhiteSpace, ?_, ?_, ?_⟩
          · intro none
            cases rest with
            | nil => contradiction
            | cons d rest =>
                have white : isWhiteSpace d = true := spaced
                simp [white] at none
          · exact fun c inside => List.mem_takeWhile_imp inside
          · rw [← trimmed, trimStart, List.takeWhile_append_dropWhile]
            exact (List.isPrefixOf?_eq_some_iff_append_eq.mp named).symm
      · contradiction
  · rintro ⟨quoted, space, spaced, white, rfl⟩
    have named : method.isPrefixOf? (method ++ (space ++ quote :: behind)) =
        some (space ++ quote :: behind) := List.isPrefixOf?_eq_some_iff_append_eq.mpr rfl
    have first : (space ++ quote :: behind).head?.any isWhiteSpace = true := by
      obtain ⟨c, space, rfl⟩ := List.exists_cons_of_ne_nil spaced
      exact white c List.mem_cons_self
    have trimmed : trimStart (space ++ quote :: behind) = quote :: behind := by
      rw [trimStart_append white, trimStart_eq_self]
      exact startsPlain_cons.mpr (isWhiteSpace_of_isQuote quoted)
    simp only [named, first, trimmed, quoted, if_true]

theorem startsCall_iff {method argument text : List Char} :
    startsCall method argument text = true ↔
      ∃ quote behind, Opens method text quote (argument ++ quote :: behind) := by
  simp only [← openingQuote?_eq_some_iff]
  unfold startsCall
  split
  · next none => simp [none]
  · next quote behind opened =>
    rw [List.isPrefixOf_iff_prefix, opened]
    constructor
    · rintro ⟨rest, rfl⟩
      exact ⟨quote, rest, by rw [List.append_assoc, List.singleton_append]⟩
    · rintro ⟨quote', rest, same⟩
      obtain ⟨rfl, rfl⟩ := Prod.mk.inj (Option.some.inj same)
      exact ⟨rest, by rw [List.append_assoc, List.singleton_append]⟩

/-- An argument ends at the first quote of the kind that opens it. -/
theorem takeWhile_append_quote {quote : Char} {argument : List Char} (closed : quote ∉ argument)
    (behind : List Char) :
    (argument ++ quote :: behind).takeWhile (· ≠ quote) = argument := by
  have others : ∀ c ∈ argument, decide (c ≠ quote) = true := by
    intro c inside
    exact decide_eq_true fun same => closed (same ▸ inside)
  rw [List.takeWhile_append_of_pos others, List.takeWhile_cons_of_neg (by simp), List.append_nil]

theorem argumentHere?_eq_some_iff {method argument text : List Char} :
    argumentHere? method text = some argument ↔
      ∃ quote behind, Opens method text quote (argument ++ quote :: behind) ∧ quote ∉ argument := by
  simp only [← openingQuote?_eq_some_iff]
  unfold argumentHere?
  split
  · next none => simp [none]
  · next quote behind opened =>
    rw [opened, Option.ite_none_right_eq_some]
    constructor
    · rintro ⟨inside, same⟩
      obtain ⟨front, rest, rfl, closed⟩ := List.eq_append_cons_of_mem inside
      rw [takeWhile_append_quote closed, Option.some.injEq] at same
      exact ⟨quote, rest, by rw [same], same ▸ closed⟩
    · rintro ⟨quote', rest, same, closed⟩
      obtain ⟨rfl, rfl⟩ := Prod.mk.inj (Option.some.inj same)
      rw [takeWhile_append_quote closed]
      exact ⟨List.mem_append_right _ List.mem_cons_self, rfl⟩

/-! ## Calls in a line -/

/-- The call that the query asks for stands in the code: the name of its method behind `before`,
where a word begins or ends, then white space, and its argument between two of these quotes. -/
def Query.StandsAt (query : Query) (code : String) (before : List Char) (quote : Char) : Prop :=
  ∃ rest behind, CutAt code.toList before rest ∧
    Opens query.method.toList rest quote (query.argument.toList ++ quote :: behind)

/-- The call stands in the code, and the first quote that can close its argument does.  This is the
argument that is read there. -/
def Query.IsReadAt (query : Query) (code : String) (before : List Char) : Prop :=
  ∃ quote, query.StandsAt code before quote ∧ quote ∉ query.argument.toList

theorem CutAt.unique {code before rest rest' : List Char} (cut : CutAt code before rest)
    (cut' : CutAt code before rest') : rest = rest' :=
  List.append_cancel_left (cut.whole.trans cut'.whole.symm)

theorem Query.isReadAt_iff {query : Query} {code : String} {before : List Char} :
    query.IsReadAt code before ↔ ∃ rest, CutAt code.toList before rest ∧
      argumentHere? query.method.toList rest = some query.argument.toList := by
  simp only [argumentHere?_eq_some_iff]
  constructor
  · rintro ⟨quote, ⟨rest, behind, cut, opens⟩, closed⟩
    exact ⟨rest, cut, quote, behind, opens, closed⟩
  · rintro ⟨rest, cut, quote, behind, opens, closed⟩
    exact ⟨quote, ⟨rest, behind, cut, opens⟩, closed⟩

/-- Only one argument is read at a place. -/
theorem Query.IsReadAt.unique {method argument other code : String} {before : List Char}
    (here : Query.IsReadAt ⟨method, argument⟩ code before)
    (here' : Query.IsReadAt ⟨method, other⟩ code before) : argument = other := by
  obtain ⟨rest, cut, read⟩ := isReadAt_iff.mp here
  obtain ⟨rest', cut', read'⟩ := isReadAt_iff.mp here'
  rw [cut.unique cut', read', Option.some.injEq, String.toList_inj] at read
  exact read.symm

/-- A query matches a line exactly if its call stands somewhere in it. -/
theorem Query.matches_iff {query : Query} {code : String} :
    query.matches code = true ↔ ∃ before quote, query.StandsAt code before quote := by
  let read := fun text =>
    if startsCall query.method.toList query.argument.toList text then some () else none
  have search : query.matches code = (findAtBoundary read none code.toList).isSome := rfl
  rw [search, ← not_iff_not, Bool.not_eq_true, Option.isSome_eq_false_iff, Option.isNone_iff_eq_none,
    findAtBoundary_eq_none_iff]
  constructor
  · rintro nothing ⟨before, quote, rest, behind, cut, opens⟩
    have starts := startsCall_iff.mpr ⟨quote, behind, opens⟩
    have none := nothing before rest cut
    simp [read, starts] at none
  · intro absent before rest cut
    refine if_neg fun starts => absent ?_
    obtain ⟨quote, behind, opens⟩ := startsCall_iff.mp starts
    exact ⟨before, quote, rest, behind, cut, opens⟩

/-- A listing reads nothing from a line exactly if no argument is read anywhere in it. -/
theorem argument?_eq_none_iff {method code : String} :
    argument? method code = none ↔
      ∀ argument before, ¬ Query.IsReadAt ⟨method, argument⟩ code before := by
  rw [argument?, Option.map_eq_none_iff, findAtBoundary_eq_none_iff]
  constructor
  · intro nothing argument before here
    obtain ⟨rest, cut, read⟩ := Query.isReadAt_iff.mp here
    rw [nothing before rest cut] at read
    contradiction
  · intro absent before rest cut
    cases read : argumentHere? method.toList rest with
    | none => rfl
    | some argument =>
        have here : Query.IsReadAt ⟨method, String.ofList argument⟩ code before :=
          Query.isReadAt_iff.mpr ⟨rest, cut, by rw [read, String.toList_ofList]⟩
        exact absurd here (absent _ _)

/-- A listing reads from a line the argument that is read at the first place where any is. -/
theorem argument?_eq_some_iff {method argument code : String} :
    argument? method code = some argument ↔
      ∃ before, Query.IsReadAt ⟨method, argument⟩ code before ∧
        ∀ other before', Query.IsReadAt ⟨method, other⟩ code before' →
          before.length ≤ before'.length := by
  rw [argument?, Option.map_eq_some_iff]
  constructor
  · rintro ⟨found, search, rfl⟩
    obtain ⟨before, rest, cut, read, first⟩ := exists_of_findAtBoundary search
    refine ⟨before, Query.isReadAt_iff.mpr ⟨rest, cut, ?_⟩, ?_⟩
    · rw [read, String.toList_ofList]
    · intro other before' here
      obtain ⟨rest', cut', read'⟩ := Query.isReadAt_iff.mp here
      exact first before' rest' cut' (by simp [read'])
  · rintro ⟨before, here, first⟩
    obtain ⟨rest, cut, read⟩ := Query.isReadAt_iff.mp here
    cases search : findAtBoundary (argumentHere? method.toList) none code.toList with
    | none =>
        have nothing := findAtBoundary_eq_none_iff.mp search before rest cut
        rw [read] at nothing
        contradiction
    | some found =>
        obtain ⟨before', rest', cut', read', first'⟩ := exists_of_findAtBoundary search
        have here' : Query.IsReadAt ⟨method, String.ofList found⟩ code before' :=
          Query.isReadAt_iff.mpr ⟨rest', cut', by rw [read', String.toList_ofList]⟩
        -- both are first, so they are the same place
        have same : before.length = before'.length :=
          Nat.le_antisymm (first _ _ here') (first' before rest cut (by simp [read]))
        obtain ⟨rfl, -⟩ := List.append_inj (cut.whole.trans cut'.whole.symm) same
        exact ⟨found, rfl, here'.unique here⟩

end Specimen.CallSite
