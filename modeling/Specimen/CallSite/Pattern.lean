/-
# Specimen.CallSite.Pattern — calls with a literal argument, as text.

A line of code calls a method with a literal argument where the method's name starts at a word
boundary and is followed by white space and by the argument between two quotes of the same kind,
single or double.  Calls with parentheses and computed arguments are deliberately none.  The name
and the argument are taken character for character; nothing in them has a special meaning, and both
may be empty.

A query asks for one argument.  A listing reads whatever argument stands there, and then the
argument cannot contain the quote that closes it.  Of several such places the leftmost counts.
-/
import Specimen.Text.Trim

namespace Specimen.CallSite

open Unicode Text

/-! ## Places in a text -/

/-- Whether a word begins or ends between a character and the text after it.  The ends of a text
count as characters outside any word. -/
def isWordBoundary (before : Option Char) (rest : List Char) : Bool :=
  before.any isWord != rest.head?.any isWord

/-- The result of a reading at the leftmost word boundary where it succeeds.  `before` is the
character in front of the text, if there is one. -/
def findAtBoundary (read : List Char → Option α) (before : Option Char) :
    List Char → Option α
  | [] => if isWordBoundary before [] then read [] else none
  | c :: rest =>
    match if isWordBoundary before (c :: rest) then read (c :: rest) else none with
    | some found => some found
    | none => findAtBoundary read (some c) rest

/-! ## The parts of a call -/

/-- The two kinds of quotes. -/
def isQuote (c : Char) : Bool := c = '\'' || c = '"'

/-- Reads a method's name, the white space after it and a quote; gives the quote and the text
behind it. -/
def openingQuote? (method : List Char) (text : List Char) : Option (Char × List Char) :=
  match method.isPrefixOf? text with
  | none => none
  | some rest =>
    if rest.head?.any isWhiteSpace then
      match trimStart rest with
      | [] => none
      | quote :: behind => if isQuote quote then some (quote, behind) else none
    else none

/-- Whether a call with exactly this argument starts here. -/
def startsCall (method argument : List Char) (text : List Char) : Bool :=
  match openingQuote? method text with
  | none => false
  | some (quote, behind) => (argument ++ [quote]).isPrefixOf behind

/-- The argument of the call that starts here: all up to the next quote of the same kind. -/
def argumentHere? (method : List Char) (text : List Char) : Option (List Char) :=
  match openingQuote? method text with
  | none => none
  | some (quote, behind) =>
    if quote ∈ behind then some (behind.takeWhile (· ≠ quote)) else none

/-! ## Queries and listings -/

/-- Asks for the calls of a method with one argument.  The pattern that stands for a query is taken
to compile, however long the method and the argument are. -/
structure Query where
  method : String
  argument : String
  deriving DecidableEq, Repr

/-- Whether a line of code holds a call that the query asks for. -/
def Query.matches (query : Query) (code : String) : Bool :=
  let method := query.method.toList
  let argument := query.argument.toList
  (findAtBoundary (fun text => if startsCall method argument text then some () else none)
    none code.toList).isSome

/-- The literal argument of the first call of a method in a line of code. -/
def argument? (method code : String) : Option String :=
  (findAtBoundary (argumentHere? method.toList) none code.toList).map String.ofList

end Specimen.CallSite
