/-
# Specimen.Config — settings.

Which method marks the blocks of a style guide, how wide one level of indentation is, and which
files are templates.
-/
import Specimen.Path

namespace Specimen

/-- The settings of an extraction. -/
structure Config where
  /-- The method whose calls are sections. -/
  method : String := "kss_block"
  /-- The blanks that make one level of indentation. -/
  indentWidth : Nat := 2
  /-- The extensions of template files, without the dot. -/
  extensions : List String := ["slim"]
  deriving DecidableEq, Repr

/-- Whether a path has the extension of a template.  One that is no text is none of them. -/
def Config.matchesExtension (config : Config) (path : Path) : Bool :=
  match path.extension?.bind Text.text? with
  | some extension => config.extensions.contains extension
  | none => false

/-- A path that is given as text. -/
structure TextPath where
  text : String

/-- Whether a path that is given as text has the extension of a template. -/
def Config.accepts (config : Config) (given : TextPath) : Bool :=
  config.matchesExtension ⟨given.text⟩

end Specimen
