import TypeLens.Files.Basic
import TypeLens.Source.Diagnostic
import TypeLens.Text.Escape

/-!
How work on source text can end without a result.
-/

namespace TypeLens

/-- What a command line can leave without a value. -/
inductive Argument
  | importPath
  | tabWidth
  | identifier
  | line
  | column
deriving DecidableEq, Repr

inductive Failure
  /-- The source is at fault; the diagnostics say how. -/
  | source (ds : List Diagnostic)
  /-- An integer literal has more digits than are read. -/
  | literalTooLong
  /-- A string literal has no value. -/
  | badString (e : Text.EscapeError)
  /-- A module with an empty name has no file. -/
  | emptyModuleName
  /-- A file cannot be looked up by its name. -/
  | badFileName (e : FileError)
  /-- Indentation cannot be measured with the tab width. -/
  | tabWidthOutOfRange
  /-- The work needs a value that was left out. -/
  | missing (a : Argument)
deriving DecidableEq, Repr

namespace Failure

def single (d : Diagnostic) : Failure := .source [d]

end Failure

end TypeLens
