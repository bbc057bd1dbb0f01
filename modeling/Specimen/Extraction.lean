/-
# Specimen.Extraction — the source of a block, from its file.

A block is found in the tree of its template, which the cache may have kept, and its source is cut
out of the file as it is now.  The file is read for that only once the block is found.
-/
import Specimen.Cache
import Specimen.CallSite.Site
import Specimen.Config

namespace Specimen

/-- A block's lines and their text. -/
structure Extraction where
  span : Span
  source : String
  deriving DecidableEq, Repr

/-- Cuts a span out of a file. -/
def extractSpan (source : Source) (config : Config) (path : Path) (span : Span) :
    Caching String := do
  pure (span.cut config.indentWidth (← Cache.read source path))

/-- The first call that a query asks for in a template. -/
def findSite (source : Source) (path : Path) (query : CallSite.Query) : Caching CallSite := do
  match CallSite.locate (← Cache.template source path) query with
  | some site => pure site
  | none => throw (.callSiteNotFound path query.method query.argument)

/-- The text of as many lines as the block has, from a line that the caller gives. -/
def extractFrom (source : Source) (config : Config) (path : Path) (startLine : Nat)
    (query : CallSite.Query) : Caching String := do
  let site ← findSite source path query
  extractSpan source config path ⟨startLine, site.lineCount⟩

/-- The lines of the block and their text. -/
def extract (source : Source) (config : Config) (path : Path) (query : CallSite.Query) :
    Caching Extraction := do
  let site ← findSite source path query
  pure ⟨site.span, ← extractSpan source config path site.span⟩

/-- The block of a section: a call of the method that the settings name. -/
def extractSection (source : Source) (config : Config) (path : Path) (argument : String) :
    Caching Extraction :=
  extract source config path ⟨config.method, argument⟩

end Specimen
