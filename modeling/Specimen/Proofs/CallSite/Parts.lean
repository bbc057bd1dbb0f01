/-
# Specimen.Proofs.CallSite.Parts — lines of code taken apart at a call.

A line with a call falls into parts: what stands in front of the method's name, the white space
behind the name, a quote, the argument, the same quote again, and what stands behind.  The parts say
all that there is to say about queries and listings.

A query matches a line if the line can be taken apart in any way with its argument
(`matches_iff_exists_parts`).  A listing takes it apart where the argument holds no quote of its own
kind, and of all such ways it takes the one with the least in front (`list_entries`); there is only
one with as little.
-/
import Mathlib.Data.List.Forall2
import Specimen.Proofs.CallSite.Agreement

namespace Specimen.CallSite

open Template Unicode Text

/-! ## Words -/

/-- The character at a position of a text belongs to a word.  Outside the text there are no words. -/
def WordAt (text : List Char) (position : Nat) : Prop := ∃ c ∈ text[position]?, isWord c = true

/-- A word begins or ends in front of a position: of the characters on its two sides, exactly one
belongs to a word. -/
def BoundaryAt (text : List Char) (position : Nat) : Prop :=
  Xor (∃ previous, position = previous + 1 ∧ WordAt text previous) (WordAt text position)

theorem boundaryAt_iff {before rest : List Char} :
    BoundaryAt (before ++ rest) before.length ↔ isWordBoundary before.getLast? rest = true := by
  have left : (∃ previous, before.length = previous + 1 ∧ WordAt (before ++ rest) previous) ↔
      before.getLast?.any isWord = true := by
    cases before using List.reverseRecOn with
    | nil => simp
    | append_singleton front c =>
        have same : ∀ previous, front.length = previous ↔ previous = front.length := fun _ => eq_comm
        simp [WordAt, same]
  have right : WordAt (before ++ rest) before.length ↔ rest.head?.any isWord = true := by
    cases rest <;> simp [WordAt]
  rw [BoundaryAt, left, right, isWordBoundary, bne_iff_ne, xor_iff_not_iff, ← Bool.eq_iff_iff]

/-! ## Parts -/

theorem isQuote_iff {c : Char} : isQuote c = true ↔ c = '\'' ∨ c = '"' := by
  simp [isQuote]

/-- A line of code taken apart at a call.  The method's name stands between `before` and `space`, and
the argument between two quotes of one kind. -/
structure Parts where
  before : String
  space : String
  quote : Char
  argument : String
  behind : String
  deriving DecidableEq, Repr

namespace Parts

/-- The line that is put together from the parts. -/
def line (parts : Parts) (method : String) : String :=
  parts.before ++ method ++ parts.space ++ parts.quote.toString ++ parts.argument ++
    parts.quote.toString ++ parts.behind

/-- The parts are those of a call of the method in the code. -/
structure Spell (parts : Parts) (method code : String) : Prop where
  whole : code = parts.line method
  boundary : BoundaryAt code.toList parts.before.length
  spaced : parts.space ≠ ""
  white : ∀ c ∈ parts.space.toList, isWhiteSpace c = true
  quoted : parts.quote = '\'' ∨ parts.quote = '"'

/-- Parts are the places where a call stands. -/
theorem standsAt_iff {method argument code : String} {before : List Char} {quote : Char} :
    Query.StandsAt ⟨method, argument⟩ code before quote ↔
      ∃ parts : Parts, parts.Spell method code ∧ parts.argument = argument ∧
        parts.before.toList = before ∧ parts.quote = quote := by
  constructor
  · rintro ⟨rest, behind, ⟨whole, boundary⟩, quoted, space, spaced, white, rfl⟩
    refine ⟨⟨String.ofList before, String.ofList space, quote, argument, String.ofList behind⟩,
      ⟨?_, ?_, ?_, ?_, ?_⟩, rfl, String.toList_ofList, rfl⟩
    · rw [← String.toList_inj, ← whole]
      simp [line]
    · rw [← whole, String.length_ofList]
      exact boundaryAt_iff.mpr boundary
    · simpa using spaced
    · simpa using white
    · exact isQuote_iff.mp quoted
  · rintro ⟨parts, ⟨whole, boundary, spaced, white, quoted⟩, rfl, rfl, rfl⟩
    have taken : parts.before.toList ++ (method.toList ++ (parts.space.toList ++
        parts.quote :: (parts.argument.toList ++ parts.quote :: parts.behind.toList))) =
          code.toList := by
      rw [whole]
      simp [line]
    refine ⟨_, parts.behind.toList, ⟨taken, ?_⟩, isQuote_iff.mpr quoted, parts.space.toList, ?_,
      white, rfl⟩
    · rw [← taken, ← String.length_toList] at boundary
      exact boundaryAt_iff.mp boundary
    · simpa using spaced

/-- The argument ends at the first quote that can close it: it holds none of its own kind. -/
def Closed (parts : Parts) : Prop := parts.quote ∉ parts.argument.toList

/-- Closed parts are the places where an argument is read. -/
theorem isReadAt_iff {method argument code : String} {before : List Char} :
    Query.IsReadAt ⟨method, argument⟩ code before ↔
      ∃ parts : Parts, parts.Spell method code ∧ parts.Closed ∧ parts.argument = argument ∧
        parts.before.toList = before := by
  simp only [Query.IsReadAt, standsAt_iff]
  constructor
  · rintro ⟨quote, ⟨parts, spell, rfl, rfl, rfl⟩, closed⟩
    exact ⟨parts, spell, closed, rfl, rfl⟩
  · rintro ⟨parts, spell, closed, rfl, rfl⟩
    exact ⟨parts.quote, ⟨parts, spell, rfl, rfl, rfl⟩, closed⟩

variable {parts other : Parts} {method code : String}

/-- What stands behind the part in front opens a call. -/
theorem Spell.opens (spell : parts.Spell method code) :
    ∃ rest, parts.before.toList ++ rest = code.toList ∧
      rest = method.toList ++ (parts.space.toList ++
        parts.quote :: (parts.argument.toList ++ parts.quote :: parts.behind.toList)) ∧
      openingQuote? method.toList rest =
        some (parts.quote, parts.argument.toList ++ parts.quote :: parts.behind.toList) := by
  refine ⟨_, ?_, rfl, openingQuote?_eq_some_iff.mpr ⟨isQuote_iff.mpr spell.quoted, _, ?_,
    spell.white, rfl⟩⟩
  · rw [spell.whole]
    simp [line]
  · simpa using spell.spaced

/-- Two ways to take a line apart with a closed argument are the same if they have as much in
front. -/
theorem Spell.unique (spell : parts.Spell method code) (closed : parts.Closed)
    (spell' : other.Spell method code) (closed' : other.Closed)
    (same : parts.before.length = other.before.length) : parts = other := by
  obtain ⟨rest, whole, rest_eq, opening⟩ := spell.opens
  obtain ⟨rest', whole', rest_eq', opening'⟩ := spell'.opens
  simp only [← String.length_toList] at same
  obtain ⟨before, rfl⟩ := List.append_inj (whole.trans whole'.symm) same
  -- the white space ends at the quote, and the argument at the next quote of its kind
  rw [opening, Option.some.injEq, Prod.mk.injEq] at opening'
  obtain ⟨quote, inside⟩ := opening'
  have argument := takeWhile_append_quote closed parts.behind.toList
  rw [inside, quote, takeWhile_append_quote closed'] at argument
  rw [rest_eq, inside, quote, List.append_cancel_left_eq, List.append_cancel_right_eq] at rest_eq'
  rw [argument, quote, List.append_cancel_left_eq, List.cons.injEq] at inside
  cases parts
  cases other
  simp only [String.toList_inj] at before rest_eq' argument inside quote
  rw [Parts.mk.injEq]
  exact ⟨before, rest_eq', quote, argument.symm, inside.2⟩

/-- The parts with the least in front of which the argument is closed. -/
structure First (parts : Parts) (method code : String) : Prop where
  spell : parts.Spell method code
  closed : parts.Closed
  least : ∀ other : Parts, other.Spell method code → other.Closed →
    parts.before.length ≤ other.before.length

theorem First.unique (first : parts.First method code) (first' : other.First method code) :
    parts = other := by
  have le := first.least other first'.spell first'.closed
  have ge := first'.least parts first.spell first.closed
  exact first.spell.unique first.closed first'.spell first'.closed (Nat.le_antisymm le ge)

/-- A listing has an argument for a line exactly if the line can be taken apart with a closed
one. -/
theorem isSome_argument?_iff :
    (argument? method code).isSome = true ↔
      ∃ parts : Parts, parts.Spell method code ∧ parts.Closed := by
  rw [Option.isSome_iff_ne_none, ne_eq, argument?_eq_none_iff]
  simp only [isReadAt_iff]
  constructor
  · intro some
    by_contra none
    refine some fun argument before => ?_
    rintro ⟨parts, spell, closed, -⟩
    exact none ⟨parts, spell, closed⟩
  · rintro ⟨parts, spell, closed⟩ none
    exact none _ _ ⟨parts, spell, closed, rfl, rfl⟩

/-- The argument that a listing has for a line is that of the first parts. -/
theorem argument?_eq_some_iff_first {argument : String} :
    argument? method code = some argument ↔
      ∃ parts : Parts, parts.First method code ∧ parts.argument = argument := by
  simp only [argument?_eq_some_iff, isReadAt_iff]
  constructor
  · rintro ⟨before, ⟨parts, spell, closed, rfl, rfl⟩, least⟩
    refine ⟨parts, ⟨spell, closed, fun other spell' closed' => ?_⟩, rfl⟩
    have le := least _ _ ⟨other, spell', closed', rfl, rfl⟩
    simpa only [String.length_toList] using le
  · rintro ⟨parts, ⟨spell, closed, least⟩, rfl⟩
    refine ⟨_, ⟨parts, spell, closed, rfl, rfl⟩, ?_⟩
    rintro _ _ ⟨other, spell', closed', -, rfl⟩
    simpa only [String.length_toList] using least other spell' closed'

/-- The first call is never closed, so that the second one counts. -/
example : argument? "k" "k 'a k \"b\"" = some "b" := by decide +kernel

end Parts

/-! ## Queries -/

/-- A query matches a line of code exactly if the line can be taken apart at a call of its method
with its argument, whatever characters the two hold. -/
theorem matches_iff_exists_parts (method argument code : String) :
    Query.matches ⟨method, argument⟩ code = true ↔
      ∃ parts : Parts, parts.Spell method code ∧ parts.argument = argument := by
  rw [Query.matches_iff]
  simp only [Parts.standsAt_iff]
  constructor
  · rintro ⟨before, quote, parts, spell, argument, -⟩
    exact ⟨parts, spell, argument⟩
  · rintro ⟨parts, spell, argument⟩
    exact ⟨_, _, parts, spell, argument, rfl, rfl⟩

/-! ## Listings -/

/-- The entry that a child of the root has in a listing, if it has one. -/
def entryAt? (root : Node) (method : String) (place : Nat) : Option (String × CallSite) :=
  (siteAt? root place).bind fun site =>
    (argument? method site.code).map fun argument => (argument, site)

theorem list_eq_filterMap (root : Node) (method : String) :
    list root method = (List.range root.children.length).filterMap (entryAt? root method) := by
  rw [list, topLevel_eq_filterMap, List.filterMap_filterMap]
  rfl

/-- What a filtered map gives comes from the items that give something, one from each. -/
theorem forall₂_filterMap {α β : Type} (f : α → Option β) (items : List α) :
    List.Forall₂ (fun item result => f item = some result)
      (items.filter fun item => (f item).isSome) (items.filterMap f) := by
  induction items with
  | nil => exact .nil
  | cons item items ih =>
      cases given : f item with
      | none => simpa [given] using ih
      | some result => simpa [given] using ih

theorem siteAt?_eq_some_iff {root : Node} {place : Nat} {site : CallSite} :
    siteAt? root place = some site ↔
      root.children[place]? = some (.block (.call site.kind site.code) site.body) ∧
        site.callLine = Node.lineBreaksIn (root.children.take place) := by
  unfold siteAt? siteAmong?
  constructor
  · intro found
    split at found
    · next here =>
      obtain rfl := Option.some.inj found
      exact ⟨here, Nat.zero_add _⟩
    · contradiction
  · rintro ⟨here, line⟩
    rw [here]
    simp only [Nat.zero_add, ← line]

/-- A child of the root has an entry exactly if it is a call whose code can be taken apart. -/
theorem isSome_entryAt?_iff {root : Node} {method : String} {place : Nat} :
    (entryAt? root method place).isSome = true ↔ ∃ kind code body,
      root.children[place]? = some (.block (.call kind code) body) ∧
        ∃ parts : Parts, parts.Spell method code ∧ parts.Closed := by
  simp only [entryAt?, Option.isSome_bind, Option.any_eq_true, Option.isSome_map,
    Parts.isSome_argument?_iff]
  constructor
  · rintro ⟨site, here, parts⟩
    exact ⟨_, _, _, (siteAt?_eq_some_iff.mp here).1, parts⟩
  · rintro ⟨kind, code, body, child, parts⟩
    exact ⟨⟨kind, code, body, _⟩, siteAt?_eq_some_iff.mpr ⟨child, rfl⟩, parts⟩

/-- What an entry of a listing says of a child of the root. -/
structure IsEntry (root : Node) (method : String) (place : Nat) (entry : String × CallSite) :
    Prop where
  /-- The child is the call of the entry. -/
  child : root.children[place]? =
    some (.block (.call entry.2.kind entry.2.code) entry.2.body)
  /-- Its line is the number of line breaks, at any depth, in the children before. -/
  line : entry.2.callLine = Node.lineBreaksIn (root.children.take place)
  /-- Its argument is that of the first parts of its code, and no other parts are first. -/
  argument : ∃ parts : Parts, parts.First method entry.2.code ∧ parts.argument = entry.1 ∧
    ∀ other : Parts, other.First method entry.2.code → other = parts

theorem isEntry_of_entryAt? {root : Node} {method : String} {place : Nat}
    {entry : String × CallSite} (given : entryAt? root method place = some entry) :
    IsEntry root method place entry := by
  obtain ⟨site, here, listed⟩ := Option.bind_eq_some_iff.mp given
  obtain ⟨argument, read, rfl⟩ := Option.map_eq_some_iff.mp listed
  obtain ⟨child, line⟩ := siteAt?_eq_some_iff.mp here
  obtain ⟨parts, first, rfl⟩ := Parts.argument?_eq_some_iff_first.mp read
  exact ⟨child, line, parts, first, rfl, fun other first' => first'.unique first⟩

/-- A listing has one entry for each child of the root that is a call and whose code can be taken
apart at a call of the method with a closed argument.  The entries are in the order of the children;
no other node has one. -/
theorem list_entries (root : Node) (method : String) :
    ∃ places : List Nat, places.Pairwise (· < ·) ∧
      (∀ place, place ∈ places ↔ ∃ kind code body,
        root.children[place]? = some (.block (.call kind code) body) ∧
          ∃ parts : Parts, parts.Spell method code ∧ parts.Closed) ∧
      List.Forall₂ (IsEntry root method) places (list root method) := by
  refine ⟨(List.range root.children.length).filter fun place =>
    (entryAt? root method place).isSome, ?_, ?_, ?_⟩
  · exact List.pairwise_lt_range.filter _
  · intro place
    rw [List.mem_filter, isSome_entryAt?_iff, List.mem_range, and_iff_right_iff_imp]
    rintro ⟨kind, code, body, child, -⟩
    exact (List.getElem?_eq_some_iff.mp child).1
  · rw [list_eq_filterMap]
    exact List.Forall₂.imp (fun _ _ => isEntry_of_entryAt?) (forall₂_filterMap _ _)

end Specimen.CallSite
