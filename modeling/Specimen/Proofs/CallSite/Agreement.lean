/-
# Specimen.Proofs.CallSite.Agreement — what is located and what is listed.

To locate a call is to ask of one argument where it stands; to list the calls is to ask of every
line which argument it has.  What is listed can be located: `located_of_listed`.  The converse holds
of lines with one call.  A line with several calls is listed with the first of them, though it can
be located by any: `listed_iff_first` says when the two agree, and `unlisted_second_call` is a line
on which they do not.
-/
import Mathlib.Data.List.Find
import Specimen.Proofs.CallSite.Pattern
import Specimen.Proofs.CallSite.Concatenation

namespace Specimen.CallSite

open Template

/-! ## Call sites by their place in the tree -/

/-- The call site that one of some siblings is, if it is a call.  The first of them starts on the
given line. -/
def siteAmong? (line : Nat) (nodes : List Node) (place : Nat) : Option CallSite :=
  match nodes[place]? with
  | some (.block (.call kind code) body) =>
    some ⟨kind, code, body, line + Node.lineBreaksIn (nodes.take place)⟩
  | _ => none

/-- The call site that a child of the root is, if it is a call. -/
def siteAt? (root : Node) (place : Nat) : Option CallSite := siteAmong? 0 root.children place

theorem siteAmong?_succ (line : Nat) (node : Node) (nodes : List Node) (place : Nat) :
    siteAmong? line (node :: nodes) (place + 1) =
      siteAmong? (line + node.lineBreaks) nodes place := by
  simp only [siteAmong?, List.getElem?_cons_succ, List.take_succ_cons, Node.lineBreaksIn,
    Nat.add_assoc]

theorem among_singleton (line : Nat) (node : Node) (nodes : List Node) :
    among line [node] = (siteAmong? line (node :: nodes) 0).toList := by
  rcases node with _ | ⟨⟨kind, code⟩ | _, body⟩ | _ <;> rfl

/-- The calls among siblings are found one place after the other. -/
theorem among_eq_filterMap (line : Nat) (nodes : List Node) :
    among line nodes = (List.range nodes.length).filterMap (siteAmong? line nodes) := by
  induction nodes generalizing line with
  | nil => rfl
  | cons node nodes ih =>
      have later : siteAmong? line (node :: nodes) ∘ Nat.succ =
          siteAmong? (line + node.lineBreaks) nodes :=
        funext fun place => siteAmong?_succ line node nodes place
      rw [among_cons, ih, among_singleton line node nodes, List.length_cons,
        List.range_succ_eq_map, List.filterMap_cons, List.filterMap_map, later]
      cases siteAmong? line (node :: nodes) 0 <;> rfl

theorem topLevel_eq_filterMap (root : Node) :
    topLevel root = (List.range root.children.length).filterMap (siteAt? root) :=
  among_eq_filterMap 0 root.children

theorem lt_length_of_siteAt? {root : Node} {place : Nat} {site : CallSite}
    (found : siteAt? root place = some site) : place < root.children.length := by
  by_contra outside
  rw [siteAt?, siteAmong?, List.getElem?_eq_none (Nat.le_of_not_lt outside)] at found
  contradiction

theorem mem_topLevel_iff {root : Node} {site : CallSite} :
    site ∈ topLevel root ↔ ∃ place, siteAt? root place = some site := by
  rw [topLevel_eq_filterMap, List.mem_filterMap]
  constructor
  · rintro ⟨place, -, found⟩
    exact ⟨place, found⟩
  · rintro ⟨place, found⟩
    exact ⟨place, List.mem_range.mpr (lt_length_of_siteAt? found), found⟩

/-- The call at this place is the first that the query asks for. -/
structure LocatedAt (root : Node) (query : Query) (place : Nat) (site : CallSite) : Prop where
  found : siteAt? root place = some site
  matched : query.matches site.code = true
  first : ∀ earlier < place, ∀ other, siteAt? root earlier = some other →
    query.matches other.code = false

theorem locate_eq_some_iff {root : Node} {query : Query} {site : CallSite} :
    locate root query = some site ↔ ∃ place, LocatedAt root query place site := by
  let asked := fun place => (siteAt? root place).any fun site => query.matches site.code
  have search : locate root query =
      ((List.range root.children.length).find? asked).bind (siteAt? root) := by
    rw [locate, topLevel_eq_filterMap, List.find?_filterMap]
  rw [search, Option.bind_eq_some_iff]
  constructor
  · rintro ⟨place, first, found⟩
    obtain ⟨here, -, before⟩ := List.find?_range_eq_some.mp first
    refine ⟨place, found, by simpa [asked, found] using here, ?_⟩
    intro earlier lt other found'
    simpa [asked, found'] using before earlier lt
  · rintro ⟨place, found, matched, first⟩
    refine ⟨place, List.find?_range_eq_some.mpr ⟨?_, ?_, ?_⟩, found⟩
    · simp [asked, found, matched]
    · exact List.mem_range.mpr (lt_length_of_siteAt? found)
    · intro earlier lt
      cases found' : siteAt? root earlier with
      | none => simp [asked, found']
      | some other => simp [asked, found', first earlier lt other found']

theorem mem_list_iff {root : Node} {method argument : String} {site : CallSite} :
    (argument, site) ∈ list root method ↔
      site ∈ topLevel root ∧ argument? method site.code = some argument := by
  rw [list, List.mem_filterMap]
  constructor
  · rintro ⟨site', inside, found⟩
    obtain ⟨argument', read, same⟩ := Option.map_eq_some_iff.mp found
    obtain ⟨rfl, rfl⟩ := Prod.mk.inj same
    exact ⟨inside, read⟩
  · rintro ⟨inside, read⟩
    exact ⟨site, inside, by rw [read, Option.map_some]⟩

/-! ## What is listed is located -/

/-- The argument that a line is listed with is one that it can be located by. -/
theorem matches_of_argument? {method argument code : String}
    (read : argument? method code = some argument) :
    Query.matches ⟨method, argument⟩ code = true := by
  obtain ⟨before, ⟨quote, stands, -⟩, -⟩ := argument?_eq_some_iff.mp read
  exact Query.matches_iff.mpr ⟨before, quote, stands⟩

/-- Every entry of a listing is located by its argument: the query matches its line, and the first
call that the query finds stands at the place of the entry or before it. -/
theorem located_of_listed {root : Node} {method argument : String} {site : CallSite}
    (listed : (argument, site) ∈ list root method) :
    Query.matches ⟨method, argument⟩ site.code = true ∧
      (∃ place, siteAt? root place = some site) ∧
      ∃ first found, locate root ⟨method, argument⟩ = some found ∧
        LocatedAt root ⟨method, argument⟩ first found ∧
        ∀ place, siteAt? root place = some site → first ≤ place := by
  obtain ⟨inside, read⟩ := mem_list_iff.mp listed
  have matched := matches_of_argument? read
  refine ⟨matched, mem_topLevel_iff.mp inside, ?_⟩
  cases search : locate root ⟨method, argument⟩ with
  | none =>
      have unmatched := List.find?_eq_none.mp search site inside
      exact absurd matched unmatched
  | some found =>
      obtain ⟨first, located⟩ := locate_eq_some_iff.mp search
      refine ⟨first, found, rfl, located, ?_⟩
      intro place here
      by_contra before
      rw [located.first place (Nat.lt_of_not_le before) site here] at matched
      contradiction

/-- A call with another one behind it on the same line. -/
def doubleSite : CallSite where
  kind := .control
  code := "kss_block '1' ; kss_block '2'"
  body := [.lineBreak, .block (.markup .tag "p") [.lineBreak]]
  callLine := 0

/-- A call by itself. -/
def singleSite : CallSite where
  kind := .output
  code := "kss_block '2' do"
  body := [.lineBreak]
  callLine := 2

/-- Both calls, one below the other. -/
def callsTree : Node :=
  .container [.block (.call doubleSite.kind doubleSite.code) doubleSite.body,
    .block (.call singleSite.kind singleSite.code) singleSite.body]

/-- The single call is listed with its argument, and located in front of it is the line where the
same argument stands second. -/
theorem located_of_listed_single :
    ("2", singleSite) ∈ list callsTree "kss_block" ∧
      locate callsTree ⟨"kss_block", "2"⟩ = some doubleSite ∧
      Query.matches ⟨"kss_block", "2"⟩ singleSite.code = true ∧
      ∃ first found, locate callsTree ⟨"kss_block", "2"⟩ = some found ∧
        LocatedAt callsTree ⟨"kss_block", "2"⟩ first found ∧
        ∀ place, siteAt? callsTree place = some singleSite → first ≤ place := by
  have listed : ("2", singleSite) ∈ list callsTree "kss_block" := by decide +kernel
  obtain ⟨matched, -, found⟩ := located_of_listed listed
  exact ⟨listed, by decide +kernel, matched, found⟩

/-! ## What is located is listed, unless another call comes first -/

/-- An argument without quotes. -/
def Unquoted (argument : String) : Prop := ∀ c ∈ argument.toList, isQuote c = false

instance (argument : String) : Decidable (Unquoted argument) :=
  List.decidableBAll (fun c => isQuote c = false) argument.toList

/-- An argument without quotes is read wherever its call stands. -/
theorem Query.StandsAt.isReadAt {query : Query} {code : String} {before : List Char} {quote : Char}
    (stands : query.StandsAt code before quote) (unquoted : Unquoted query.argument) :
    query.IsReadAt code before := by
  refine ⟨quote, stands, fun inside => ?_⟩
  obtain ⟨_, _, _, opens⟩ := stands
  have noQuote := unquoted quote inside
  rw [opens.isQuote] at noQuote
  contradiction

/-- A line that is matched with an argument without quotes has an argument to be listed with. -/
theorem exists_argument?_of_matches {method argument code : String} (unquoted : Unquoted argument)
    (matched : Query.matches ⟨method, argument⟩ code = true) :
    ∃ other, argument? method code = some other := by
  obtain ⟨before, quote, stands⟩ := Query.matches_iff.mp matched
  rw [← Option.isSome_iff_exists, Option.isSome_iff_ne_none]
  exact fun none => argument?_eq_none_iff.mp none _ _ (stands.isReadAt unquoted)

/-- A call that is located by an argument without quotes is listed, but it is listed only once, with
the argument that is read first in its line.  So the listing has it with the argument that it was
located by exactly if no other argument is read further to the left. -/
theorem listed_iff_first {root : Node} {method argument : String} {site : CallSite}
    (unquoted : Unquoted argument) (located : locate root ⟨method, argument⟩ = some site) :
    (∃ other, (other, site) ∈ list root method) ∧
      ((argument, site) ∈ list root method ↔
        ∀ other before, Query.IsReadAt ⟨method, other⟩ site.code before →
          ∃ before', Query.IsReadAt ⟨method, argument⟩ site.code before' ∧
            before'.length ≤ before.length) := by
  obtain ⟨place, located⟩ := locate_eq_some_iff.mp located
  have inside : site ∈ topLevel root := mem_topLevel_iff.mpr ⟨place, located.found⟩
  obtain ⟨listed, read⟩ := exists_argument?_of_matches unquoted located.matched
  refine ⟨⟨listed, mem_list_iff.mpr ⟨inside, read⟩⟩, ?_⟩
  rw [mem_list_iff, and_iff_right inside, argument?_eq_some_iff]
  constructor
  · rintro ⟨before', here, first⟩ other before there
    exact ⟨before', here, first other before there⟩
  · intro leftmost
    obtain ⟨before, here, first⟩ := argument?_eq_some_iff.mp read
    obtain ⟨before', there, le⟩ := leftmost listed before here
    refine ⟨before', there, fun other before'' elsewhere => ?_⟩
    exact Nat.le_trans le (first other before'' elsewhere)

/-- On a line with two calls, another argument is read in front of the second one. -/
theorem listed_iff_first_double :
    Unquoted "2" ∧ locate callsTree ⟨"kss_block", "2"⟩ = some doubleSite ∧
      (∃ other, (other, doubleSite) ∈ list callsTree "kss_block") ∧
      ¬ ∀ other before, Query.IsReadAt ⟨"kss_block", other⟩ doubleSite.code before →
          ∃ before', Query.IsReadAt ⟨"kss_block", "2"⟩ doubleSite.code before' ∧
            before'.length ≤ before.length := by
  have unquoted : Unquoted "2" := by decide
  have located : locate callsTree ⟨"kss_block", "2"⟩ = some doubleSite := by decide +kernel
  have unlisted : ("2", doubleSite) ∉ list callsTree "kss_block" := by decide +kernel
  obtain ⟨listed, first⟩ := listed_iff_first unquoted located
  exact ⟨unquoted, located, listed, mt first.mpr unlisted⟩

/-- The second call on a line is located, and no entry for its node has its argument. -/
theorem unlisted_second_call :
    Unquoted "2" ∧ locate callsTree ⟨"kss_block", "2"⟩ = some doubleSite ∧
      list callsTree "kss_block" = [("1", doubleSite), ("2", singleSite)] ∧
      ("2", doubleSite) ∉ list callsTree "kss_block" := by
  decide +kernel

/-! ## Lines with one call -/

/-- The text occurs at no more than one position of the code. -/
def OccursAtMostOnce (text code : List Char) : Prop :=
  ∀ i ≤ code.length, ∀ j ≤ code.length, text <+: code.drop i → text <+: code.drop j → i = j

instance (text code : List Char) : Decidable (OccursAtMostOnce text code) :=
  inferInstanceAs (Decidable (∀ i ≤ code.length, ∀ j ≤ code.length,
    text <+: code.drop i → text <+: code.drop j → i = j))

/-- Where a call stands, the name of its method does. -/
theorem Query.StandsAt.occurs {query : Query} {code : String} {before : List Char} {quote : Char}
    (stands : query.StandsAt code before quote) :
    before.length ≤ code.toList.length ∧
      query.method.toList <+: code.toList.drop before.length := by
  obtain ⟨rest, behind, ⟨whole, -⟩, -, space, -, -, rfl⟩ := stands
  rw [← whole, List.drop_left, List.length_append]
  exact ⟨Nat.le_add_right _ _, List.prefix_append _ _⟩

/-- If the name of the method occurs only once in a line, a query without quotes matches it exactly
if it is listed with that argument. -/
theorem matches_iff_argument? {method argument code : String} (unquoted : Unquoted argument)
    (once : OccursAtMostOnce method.toList code.toList) :
    Query.matches ⟨method, argument⟩ code = true ↔ argument? method code = some argument := by
  refine ⟨fun matched => ?_, matches_of_argument?⟩
  obtain ⟨before, quote, stands⟩ := Query.matches_iff.mp matched
  have here := stands.isReadAt unquoted
  refine argument?_eq_some_iff.mpr ⟨before, here, fun other before' there => ?_⟩
  obtain ⟨quote', stands', -⟩ := there
  obtain ⟨le, occurs⟩ := stands.occurs
  obtain ⟨le', occurs'⟩ := stands'.occurs
  exact Nat.le_of_eq (once _ le _ le' occurs occurs')

/-- If the name of the method occurs only once in every line of code, the first entry of the listing
with an argument without quotes is the call that is located by it. -/
theorem find?_list {root : Node} {method argument : String} (unquoted : Unquoted argument)
    (once : ∀ site ∈ topLevel root, OccursAtMostOnce method.toList site.code.toList) :
    (list root method).find? (fun entry => entry.1 = argument) =
      (locate root ⟨method, argument⟩).map fun site => (argument, site) := by
  have same : ∀ site ∈ topLevel root,
      (((argument? method site.code).map fun argument => (argument, site)).any
        fun entry => entry.1 = argument) = Query.matches ⟨method, argument⟩ site.code := by
    intro site inside
    rw [Bool.eq_iff_iff, matches_iff_argument? unquoted (once site inside)]
    cases argument? method site.code <;> simp
  rw [list, List.find?_filterMap, List.find?_congr same]
  cases search : (topLevel root).find? fun site => Query.matches ⟨method, argument⟩ site.code with
  | none => rw [locate, search]; rfl
  | some site =>
      have matched := List.find?_some search
      have read := (matches_iff_argument? unquoted
        (once site (List.mem_of_find?_eq_some search))).mp matched
      rw [locate, search, Option.bind_some, read]
      rfl

end Specimen.CallSite
