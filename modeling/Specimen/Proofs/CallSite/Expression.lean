/-
# Specimen.Proofs.CallSite.Expression — the call pattern as a regular expression.

What a query and a listing search for can be written as one regular expression: a word boundary, the
method's name, white space, and an argument in single or in double quotes.  They differ in what the
argument may be: a fixed text for a query, and anything without the closing quote for a listing,
which remembers it as a group.

Here such expressions have their usual meaning.  A match is sought from left to right, and where
several begin at one place, the one counts that backtracking meets first: a repetition takes as much
as it can, and the first of two alternatives goes before the second.  A match may begin at any place,
so there are no anchors; a text that is to be taken literally has no special characters.

`matches_eq_search` and `argument?_eq_search` say that the search in `Specimen.CallSite.Pattern`,
which never goes back, finds the same.  The reason is that nothing in the pattern leaves a choice:
white space is no quote, and the class of an argument leaves out the quote that ends it.
-/
import Specimen.Proofs.CallSite.Pattern

namespace Specimen.CallSite

open Unicode Text

/-! ## Expressions -/

/-- Regular expressions, as far as calls need them. -/
inductive Expression where
  /-- A word begins or ends here. -/
  | boundary
  /-- This text, character for character. -/
  | literal (text : List Char)
  /-- One character of a class. -/
  | one (belongs : Char → Bool)
  /-- Any number of characters of a class, as many as possible. -/
  | many (belongs : Char → Bool)
  /-- The inner expression; what it takes is remembered under a number. -/
  | group (number : Nat) (inner : Expression)
  | sequence (first second : Expression)
  /-- One of two expressions, preferably the first. -/
  | either (first second : Expression)

/-- A match that begins at some place of a text. -/
structure Match where
  taken : List Char
  /-- The text behind what is taken. -/
  rest : List Char
  groups : List (Nat × List Char) := []

namespace Match

/-- The match with another one behind it. -/
def followedBy (first second : Match) : Match :=
  ⟨first.taken ++ second.taken, second.rest, first.groups ++ second.groups⟩

/-- The match, remembered as a group. -/
def remember (number : Nat) (found : Match) : Match :=
  { found with groups := (number, found.taken) :: found.groups }

end Match

/-- The text of the first group, or else of the second. -/
def captured? (groups : List (Nat × List Char)) : Option (List Char) :=
  (groups.lookup 1).or (groups.lookup 2)

/-- The ways to take characters of a class from the front of a text, the longest one first. -/
def runs (belongs : Char → Bool) : List Char → List Match
  | [] => [⟨[], [], []⟩]
  | c :: rest =>
    (if belongs c then (runs belongs rest).map (Match.followedBy ⟨[c], rest, []⟩) else []) ++
      [⟨[], c :: rest, []⟩]

namespace Expression

/-- All matches that begin between two parts of a text, in the order of preference. -/
def matchesAt : Expression → List Char → List Char → List Match
  | boundary, before, rest => if isWordBoundary before.getLast? rest then [⟨[], rest, []⟩] else []
  | literal text, _, rest => (text.isPrefixOf? rest).toList.map fun behind => ⟨text, behind, []⟩
  | one belongs, _, rest =>
    match rest with
    | [] => []
    | c :: behind => if belongs c then [⟨[c], behind, []⟩] else []
  | many belongs, _, rest => runs belongs rest
  | group number inner, before, rest => (inner.matchesAt before rest).map (Match.remember number)
  | sequence first second, before, rest =>
    (first.matchesAt before rest).flatMap fun found =>
      (second.matchesAt (before ++ found.taken) found.rest).map found.followedBy
  | either first second, before, rest => first.matchesAt before rest ++ second.matchesAt before rest

/-- The leftmost match in a text, and of those the one that is preferred. -/
def search (expression : Expression) (text : List Char) : Option Match :=
  (cuts [] text).findSome? fun cut => (expression.matchesAt cut.1 cut.2).head?

/-! ## The pattern of a call -/

/-- An expression between two quotes of one kind. -/
def quoted (quote : Char) (inner : Expression) : Expression :=
  sequence (literal [quote]) (sequence inner (literal [quote]))

/-- A call of a method, with what its argument may be in single and in double quotes. -/
def call (method : List Char) (single double : Expression) : Expression :=
  sequence boundary <| sequence (literal method) <| sequence (one isWhiteSpace) <|
    sequence (many isWhiteSpace) <| either (quoted '\'' single) (quoted '"' double)

/-- The calls that a query asks for. -/
def asking (query : Query) : Expression :=
  call query.method.toList (literal query.argument.toList) (literal query.argument.toList)

/-- The number under which a listing remembers an argument between quotes of one kind. -/
def groupNumber (quote : Char) : Nat := if quote = '\'' then 1 else 2

/-- Anything without a quote of one kind, as a group. -/
def unquoted (quote : Char) : Expression := group (groupNumber quote) (many (· ≠ quote))

/-- The calls that a listing reads, with their arguments as groups. -/
def listing (method : String) : Expression := call method.toList (unquoted '\'') (unquoted '"')

end Expression

/-! ## Repetitions -/

/-- A repetition leaves no choice if what follows it cannot begin with a character of the class. -/
theorem runs_flatMap {α : Type} {belongs : Char → Bool} (text : List Char) {next : Match → List α}
    (blocked : ∀ found : Match, found.rest.head?.any belongs = true → next found = []) :
    (runs belongs text).flatMap next =
      next ⟨text.takeWhile belongs, text.dropWhile belongs, []⟩ := by
  induction text generalizing next with
  | nil => exact List.append_nil _
  | cons c rest ih =>
      by_cases belong : belongs c = true
      · have others := @ih (next ∘ Match.followedBy ⟨[c], rest, []⟩)
          fun found first => blocked (Match.followedBy ⟨[c], rest, []⟩ found) first
        -- what stands behind a shorter run begins with a character of the class
        have shortest : next ⟨[], c :: rest, []⟩ = [] := blocked _ belong
        rw [runs, if_pos belong, List.flatMap_append, List.flatMap_map, List.flatMap_singleton,
          shortest, List.append_nil, List.takeWhile_cons_of_pos belong,
          List.dropWhile_cons_of_pos belong]
        exact others
      · rw [runs, if_neg belong, List.nil_append, List.flatMap_singleton,
          List.takeWhile_cons_of_neg belong, List.dropWhile_cons_of_neg belong]

namespace Expression

/-- The groups of all matches that begin between two parts of a text. -/
def groupsAt (expression : Expression) (before rest : List Char) : List (List (Nat × List Char)) :=
  (expression.matchesAt before rest).map Match.groups

variable {first second : Expression} {before rest : List Char}

/-! ## What has no choice -/

theorem groupsAt_sequence_of_none (none : first.matchesAt before rest = []) :
    (sequence first second).groupsAt before rest = [] := by
  rw [groupsAt, matchesAt, none]
  rfl

theorem groupsAt_sequence_of_one {taken behind : List Char}
    (one : first.matchesAt before rest = [⟨taken, behind, []⟩]) :
    (sequence first second).groupsAt before rest = second.groupsAt (before ++ taken) behind := by
  rw [groupsAt, matchesAt, one, List.flatMap_singleton, List.map_map]
  rfl

theorem groupsAt_either :
    (either first second).groupsAt before rest =
      first.groupsAt before rest ++ second.groupsAt before rest :=
  List.map_append

/-- A repetition has no choice either, if what comes next cannot begin with its characters. -/
theorem groupsAt_many {belongs : Char → Bool}
    (blocked : ∀ before rest, rest.head?.any belongs = true → second.matchesAt before rest = []) :
    (sequence (many belongs) second).groupsAt before rest =
      second.groupsAt (before ++ rest.takeWhile belongs) (rest.dropWhile belongs) := by
  rw [groupsAt, matchesAt, matchesAt, runs_flatMap, List.map_map]
  · rfl
  · intro found begins
    rw [blocked _ _ begins]
    rfl

/-! ## Quotes -/

theorem matchesAt_quoted_of_ne {quote : Char} {inner : Expression}
    (other : rest.head? ≠ some quote) : (quoted quote inner).matchesAt before rest = [] := by
  have none : (literal [quote]).matchesAt before rest = [] := by
    cases rest with
    | nil => rfl
    | cons c behind =>
        have differ : (quote == c) = false := by
          rw [beq_eq_false_iff_ne]
          rintro rfl
          exact other rfl
        simp [matchesAt, List.isPrefixOf?, differ]
  rw [quoted, matchesAt, none]
  rfl

theorem groupsAt_quoted {quote : Char} {inner : Expression} {behind : List Char} :
    (quoted quote inner).groupsAt before (quote :: behind) =
      (sequence inner (literal [quote])).groupsAt (before ++ [quote]) behind := by
  apply groupsAt_sequence_of_one
  simp [matchesAt, List.isPrefixOf?]

/-- No quote is white space. -/
theorem matchesAt_either_of_white {single double : Expression}
    (white : rest.head?.any isWhiteSpace = true) :
    (either (quoted '\'' single) (quoted '"' double)).matchesAt before rest = [] := by
  have noQuote : ∀ quote, isQuote quote = true → rest.head? ≠ some quote := by
    intro quote isQuote first
    rw [first, Option.any_some, isWhiteSpace_of_isQuote isQuote] at white
    contradiction
  rw [matchesAt, matchesAt_quoted_of_ne (noQuote _ rfl), matchesAt_quoted_of_ne (noQuote _ rfl)]
  rfl

/-- What the alternative of the two quotes gives depends on the first character alone. -/
theorem groupsAt_either_quoted {single double : Expression}
    {reads : Char → List Char → List (List (Nat × List Char))}
    (inSingle : ∀ before behind,
      (sequence single (literal ['\''])).groupsAt before behind = reads '\'' behind)
    (inDouble : ∀ before behind,
      (sequence double (literal ['"'])).groupsAt before behind = reads '"' behind) :
    (either (quoted '\'' single) (quoted '"' double)).groupsAt before rest =
      match rest with
      | [] => []
      | quote :: behind => if isQuote quote then reads quote behind else [] := by
  have none : ∀ quote inner, rest.head? ≠ some quote →
      (quoted quote inner).groupsAt before rest = [] := by
    intro quote inner other
    rw [groupsAt, matchesAt_quoted_of_ne other]
    rfl
  rw [groupsAt_either]
  cases rest with
  | nil =>
      rw [none _ _ (by simp), none _ _ (by simp)]
      rfl
  | cons quote behind =>
      by_cases isSingle : quote = '\''
      · subst isSingle
        rw [groupsAt_quoted, inSingle, none _ _ (by simp), List.append_nil]
        rfl
      · rw [none '\'' _ (by simpa using isSingle), List.nil_append]
        by_cases isDouble : quote = '"'
        · subst isDouble
          rw [groupsAt_quoted, inDouble]
          rfl
        · rw [none '"' _ (by simpa using isDouble)]
          simp [isQuote, isSingle, isDouble]

/-! ## Calls -/

/-- The groups of a call that begins at some place: those that are read behind its opening quote. -/
theorem groupsAt_call {method : List Char} {single double : Expression}
    {reads : Char → List Char → List (List (Nat × List Char))}
    (inSingle : ∀ before behind,
      (sequence single (literal ['\''])).groupsAt before behind = reads '\'' behind)
    (inDouble : ∀ before behind,
      (sequence double (literal ['"'])).groupsAt before behind = reads '"' behind) :
    (call method single double).groupsAt before rest =
      if isWordBoundary before.getLast? rest then
        match openingQuote? method rest with
        | none => []
        | some (quote, behind) => reads quote behind
      else [] := by
  unfold call openingQuote?
  split
  case isFalse inside =>
    apply groupsAt_sequence_of_none
    rw [matchesAt, if_neg inside]
  case isTrue begins =>
    -- from here on each part of the call is missing, or there is one way to take it
    have here : boundary.matchesAt before rest = [⟨[], rest, []⟩] := by rw [matchesAt, if_pos begins]
    rw [groupsAt_sequence_of_one here, List.append_nil]
    cases named : method.isPrefixOf? rest with
    | none =>
        apply groupsAt_sequence_of_none
        rw [matchesAt, named]
        rfl
    | some behind =>
        have name : (literal method).matchesAt before rest = [⟨method, behind, []⟩] := by
          rw [matchesAt, named]
          rfl
        rw [groupsAt_sequence_of_one name]
        cases behind with
        | nil => exact groupsAt_sequence_of_none rfl
        | cons c behind =>
            by_cases white : isWhiteSpace c = true
            · have space : (one isWhiteSpace).matchesAt (before ++ method) (c :: behind) =
                  [⟨[c], behind, []⟩] := if_pos white
              have trimmed : trimStart (c :: behind) = behind.dropWhile isWhiteSpace :=
                List.dropWhile_cons_of_pos white
              rw [groupsAt_sequence_of_one space,
                groupsAt_many fun _ _ => matchesAt_either_of_white,
                groupsAt_either_quoted inSingle inDouble]
              simp only [List.head?_cons, Option.any_some, white, if_true, trimmed]
              cases behind.dropWhile isWhiteSpace with
              | nil => rfl
              | cons quote behind =>
                  dsimp only
                  cases isQuote quote <;> rfl
            · have space : (one isWhiteSpace).matchesAt (before ++ method) (c :: behind) = [] :=
                if_neg white
              rw [groupsAt_sequence_of_none space]
              simp [white]

/-! ## The two searches -/

theorem search_groups (expression : Expression) (text : List Char) :
    (expression.search text).map Match.groups =
      (cuts [] text).findSome? fun cut => (expression.groupsAt cut.1 cut.2).head? := by
  rw [search, List.map_findSome?]
  congr 1
  funext cut
  exact List.head?_map.symm

/-- The leftmost call in a text is found at the leftmost word boundary where one can be read. -/
theorem search_call {method text : List Char} {single double : Expression}
    {reads : Char → List Char → List (List (Nat × List Char))}
    (inSingle : ∀ before behind,
      (sequence single (literal ['\''])).groupsAt before behind = reads '\'' behind)
    (inDouble : ∀ before behind,
      (sequence double (literal ['"'])).groupsAt before behind = reads '"' behind) :
    ((call method single double).search text).map Match.groups =
      findAtBoundary (fun rest =>
        match openingQuote? method rest with
        | none => none
        | some (quote, behind) => (reads quote behind).head?) none text := by
  rw [search_groups]
  refine Eq.trans ?_ (findAtBoundary_eq _ [] text).symm
  congr 1
  funext cut
  rw [groupsAt_call inSingle inDouble, readAt]
  split
  · split <;> rfl
  · rfl

/-- A text and its closing quote are read where both stand. -/
theorem groupsAt_literal_quote {argument behind : List Char} {quote : Char} :
    (sequence (literal argument) (literal [quote])).groupsAt before behind =
      if (argument ++ [quote]).isPrefixOf behind then [[]] else [] := by
  cases stands : argument.isPrefixOf? behind with
  | none =>
      rw [groupsAt_sequence_of_none (by rw [matchesAt, stands]; rfl), if_neg]
      rw [List.isPrefixOf_iff_prefix]
      rintro ⟨rest, rfl⟩
      have found : argument.isPrefixOf? (argument ++ ([quote] ++ rest)) = some ([quote] ++ rest) :=
        List.isPrefixOf?_eq_some_iff_append_eq.mpr rfl
      rw [List.append_assoc, found] at stands
      contradiction
  | some rest =>
      rw [groupsAt_sequence_of_one (by rw [matchesAt, stands]; rfl)]
      obtain rfl := List.isPrefixOf?_eq_some_iff_append_eq.mp stands
      simp only [List.isPrefixOf_iff_prefix, List.prefix_append_right_inj]
      cases rest with
      | nil => rfl
      | cons c rest =>
          by_cases same : quote = c
          · simp [groupsAt, matchesAt, List.isPrefixOf?, same]
          · simp [groupsAt, matchesAt, List.isPrefixOf?, same]

/-- A text without the closing quote is read up to the first of them, if there is one. -/
theorem groupsAt_unquoted_quote {behind : List Char} {quote : Char} :
    (sequence (unquoted quote) (literal [quote])).groupsAt before behind =
      if quote ∈ behind then [[(groupNumber quote, behind.takeWhile (· ≠ quote))]] else [] := by
  have blocked : ∀ before (found : Match), found.rest.head?.any (· ≠ quote) = true →
      (literal [quote]).matchesAt before found.rest = [] := by
    intro before found other
    cases rest : found.rest with
    | nil => rfl
    | cons c behind =>
        have differ : quote ≠ c := by
          rw [rest] at other
          exact Ne.symm (of_decide_eq_true other)
        simp [matchesAt, List.isPrefixOf?, differ]
  rw [groupsAt, matchesAt, unquoted, matchesAt, matchesAt, List.flatMap_map, runs_flatMap]
  · by_cases closed : quote ∈ behind
    · obtain ⟨front, rest, rfl, first⟩ := List.eq_append_cons_of_mem closed
      have others : ∀ c ∈ front, decide (c ≠ quote) = true := by
        intro c inside
        exact decide_eq_true fun same => first (same ▸ inside)
      have next : (front ++ quote :: rest).dropWhile (· ≠ quote) = quote :: rest := by
        rw [List.dropWhile_append_of_pos others, List.dropWhile_cons_of_neg (by simp)]
      rw [if_pos closed, takeWhile_append_quote first, next]
      simp [matchesAt, List.isPrefixOf?, Match.followedBy, Match.remember]
    · have none : behind.dropWhile (· ≠ quote) = [] := by
        rw [List.dropWhile_eq_nil_iff]
        intro c inside
        exact decide_eq_true fun same => closed (same ▸ inside)
      rw [if_neg closed, none]
      rfl
  · intro found other
    rw [Match.remember, blocked _ found other]
    rfl

end Expression

/-- What is made of the thing found can be made where it is read, if something always comes of
it. -/
theorem findAtBoundary_bind {α β : Type} {read : List Char → Option α} {use : α → Option β}
    (given : ∀ text found, read text = some found → use found ≠ none) (before : Option Char)
    (text : List Char) :
    (findAtBoundary read before text).bind use =
      findAtBoundary (fun rest => (read rest).bind use) before text := by
  induction text generalizing before with
  | nil =>
      unfold findAtBoundary
      split <;> rfl
  | cons c text ih =>
      unfold findAtBoundary
      by_cases boundary : isWordBoundary before (c :: text) = true
      · rw [if_pos boundary, if_pos boundary]
        cases found : read (c :: text) with
        | none => exact ih _
        | some result =>
            -- both searches end here, because something comes of the result
            obtain ⟨used, some⟩ := Option.ne_none_iff_exists'.mp (given _ _ found)
            simp only [Option.bind_some, some]
      · rw [if_neg boundary, if_neg boundary]
        exact ih _

/-- A query matches a line exactly if the expression of its call has a match there. -/
theorem matches_eq_search (query : Query) (code : String) :
    query.matches code = ((Expression.asking query).search code.toList).isSome := by
  have groups := @Expression.search_call query.method.toList code.toList _ _
    (fun quote behind =>
      if (query.argument.toList ++ [quote]).isPrefixOf behind then [[]] else [])
    (fun _ _ => Expression.groupsAt_literal_quote) (fun _ _ => Expression.groupsAt_literal_quote)
  have found : (((Expression.asking query).search code.toList).map Match.groups).bind
      (fun _ => some ()) = findAtBoundary (fun text =>
        if startsCall query.method.toList query.argument.toList text then some () else none)
        none code.toList := by
    refine (congrArg (Option.bind · _) groups).trans ((findAtBoundary_bind ?_ _ _).trans ?_)
    · simp
    · congr 1
      funext text
      unfold startsCall
      cases openingQuote? query.method.toList text with
      | none => rfl
      | some opened =>
          dsimp only
          split <;> rfl
  rw [Query.matches, ← found]
  cases (Expression.asking query).search code.toList <;> rfl

theorem captured?_groupNumber (quote : Char) (argument : List Char) :
    captured? [(Expression.groupNumber quote, argument)] = some argument := by
  unfold Expression.groupNumber
  split <;> rfl

/-- A listing reads from a line the first group of the leftmost match of its expression, or else the
second. -/
theorem argument?_eq_search (method code : String) :
    argument? method code = (((Expression.listing method).search code.toList).bind
      fun found => captured? found.groups).map String.ofList := by
  have groups := @Expression.search_call method.toList code.toList _ _
    (fun quote behind => if quote ∈ behind then
      [[(Expression.groupNumber quote, behind.takeWhile (· ≠ quote))]] else [])
    (fun _ _ => Expression.groupsAt_unquoted_quote) (fun _ _ => Expression.groupsAt_unquoted_quote)
  have found : (((Expression.listing method).search code.toList).map Match.groups).bind captured? =
      findAtBoundary (argumentHere? method.toList) none code.toList := by
    refine (congrArg (Option.bind · _) groups).trans ((findAtBoundary_bind ?_ _ _).trans ?_)
    · intro text found read
      split at read
      · contradiction
      · split at read
        · obtain rfl := Option.some.inj read
          rw [captured?_groupNumber]
          exact Option.some_ne_none _
        · contradiction
    · congr 1
      funext text
      unfold argumentHere?
      cases openingQuote? method.toList text with
      | none => rfl
      | some opened =>
          dsimp only
          split
          · exact captured?_groupNumber _ _
          · rfl
  rw [argument?, ← found, Option.bind_map]
  rfl

end Specimen.CallSite
