import TypeLens.Source.Span

namespace TypeLens

inductive Severity
  | error
  | warning
  | other (label : String)
deriving DecidableEq, Repr

def Severity.label : Severity → String
  | .error => "error"
  | .warning => "warning"
  | .other l => l

/-- The part of the program that speaks. -/
inductive Phase
  | parser
  | typecheck
  | loader
  | desugar
  | interactive
deriving DecidableEq, Repr

def Phase.label : Phase → String
  | .parser => "parser"
  | .typecheck => "typecheck"
  | .loader => "loader"
  | .desugar => "desugar"
  | .interactive => "interactive"

structure Diagnostic where
  message : String
  code : Option String := none
  phase : Option Phase := none
  severity : Severity := .error
  span : Span := .unknown
  notes : List String := []
deriving DecidableEq, Repr

namespace Diagnostic

def isError (d : Diagnostic) : Bool := d.severity = .error

/-- `place: severity: message`, then the notes, each on an indented line of its own. -/
def render (d : Diagnostic) : String :=
  "\n".intercalate
    ((d.span.render ++ ": " ++ d.severity.label ++ ": " ++ d.message) :: d.notes.map ("    " ++ ·))

def renderAll (ds : List Diagnostic) : String := "\n".intercalate (ds.map render)

def hasErrors (ds : List Diagnostic) : Bool := ds.any isError

end Diagnostic

end TypeLens
