/-
# Specimen.CallSite.Site — calls in a tree, and the lines they span.

Only the blocks at the top level of a template are call sites; calls inside other blocks are part of
those blocks.  The line of a call is the number of line breaks before it in the tree.  Its body
begins on the next line and spans as many lines as the call's children hold line breaks, the break
of the call's own line left out.
-/
import Specimen.CallSite.Pattern
import Specimen.Span
import Specimen.Template.Node

namespace Specimen

open Template

/-- A call at the top level of a tree. -/
structure CallSite where
  kind : CallKind
  code : String
  /-- The nodes below the call. -/
  body : List Node
  /-- The line of the call, counted from zero. -/
  callLine : Nat
  deriving DecidableEq, Repr

namespace CallSite

/-- The first line of the body. -/
def bodyStart (site : CallSite) : Nat := site.callLine + 1

/-- The number of lines in the body. -/
def lineCount (site : CallSite) : Nat := Node.bodyLineCount site.body

/-- The lines of the body. -/
def span (site : CallSite) : Span := ⟨site.bodyStart, site.lineCount⟩

/-- The calls among some sibling nodes, the first of which starts on the given line. -/
def among (line : Nat) : List Node → List CallSite
  | [] => []
  | .block (.call kind code) body :: rest =>
    ⟨kind, code, body, line⟩ :: among (line + Node.lineBreaksIn body) rest
  | node :: rest => among (line + node.lineBreaks) rest

/-- The calls at the top level of a tree, in the order of the source. -/
def topLevel (root : Node) : List CallSite := among 0 root.children

/-- The first call at the top level that a query asks for. -/
def locate (root : Node) (query : Query) : Option CallSite :=
  (topLevel root).find? fun site => query.matches site.code

/-- Every call of a method at the top level, with its literal argument. -/
def list (root : Node) (method : String) : List (String × CallSite) :=
  (topLevel root).filterMap fun site =>
    (argument? method site.code).map fun argument => (argument, site)

end CallSite

end Specimen
