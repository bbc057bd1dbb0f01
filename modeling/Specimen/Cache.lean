/-
# Specimen.Cache — templates that have been parsed.

A cache keeps the tree of every template that could be read and parsed, under the components of its
path, and it keeps it for good: a later request for an equal path gets the same tree, whatever has
become of the file.  A template that cannot be read or parsed leaves nothing behind and is tried
again the next time.

The cache also counts the reads, those that fail included.
-/
import Specimen.Source
import Specimen.Template.Outline

namespace Specimen

open Template

/-- Why a block cannot be extracted.  There is no error for a query whose pattern is too large to be
compiled: patterns of every size are taken to compile. -/
inductive ExtractError where
  | read (path : Path) (fault : ReadError)
  | parse (path : Path) (fault : ParseError)
  | callSiteNotFound (path : Path) (method argument : String)
  deriving DecidableEq, Repr

/-- The error in words. -/
def ExtractError.message : ExtractError → String
  | read path fault => s!"Failed to read `{path}`: {fault.message}"
  | parse path fault => s!"Failed to parse `{path}`: {fault.message}"
  | callSiteNotFound path method argument =>
    "No `" ++ method ++ " '" ++ argument ++ "'` block found in `" ++ path.text ++ "`"

/-- Parsed templates, and how many reads there have been. -/
structure Cache where
  /-- The trees by the components of their paths, in the order in which they were first parsed. -/
  templates : List (List Component × Node) := []
  reads : Nat := 0

/-- Work with a cache.  What it does to the cache stands even when it fails. -/
abbrev Caching := ExceptT ExtractError (StateM Cache)

namespace Cache

/-- The tree that is kept for a path. -/
def find? (cache : Cache) (path : Path) : Option Node := cache.templates.lookup path.components

/-- Keeps a tree. -/
def keep (cache : Cache) (path : Path) (node : Node) : Cache :=
  { cache with templates := cache.templates ++ [(path.components, node)] }

/-- One more read. -/
def countRead (cache : Cache) : Cache := { cache with reads := cache.reads + 1 }

/-- Reads a file, past the templates that are kept. -/
def read (source : Source) (path : Path) : Caching String := do
  modify countRead
  match source.read path with
  | .ok text => pure text
  | .error fault => throw (.read path fault)

/-- The tree of a template: the one that is kept, or else the one that is in the file now. -/
def template (source : Source) (path : Path) : Caching Node := do
  match (← get).find? path with
  | some node => pure node
  | none =>
    let text ← read source path
    match parse text with
    | .ok node =>
      modify (keep · path node)
      pure node
    | .error fault => throw (.parse path fault)

end Cache

end Specimen
