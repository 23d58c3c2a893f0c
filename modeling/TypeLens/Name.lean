import TypeLens.Text.Letter

namespace TypeLens

/-- The module that comes with the program. -/
def preludeModule : String := "Prelude"

/-- Values are variables and data constructors; types are type constructors and classes. -/
inductive Namespace
  | value
  | type
deriving DecidableEq, Repr, Inhabited

/-- The identity of a declared entity. Top-level names have the unique number zero. -/
structure Name where
  occ : String
  module : String
  space : Namespace := .value
  unique : Int := 0
deriving DecidableEq, Repr, Inhabited

namespace Name

/-- Symbolic names stand in parentheses when they come before their arguments. -/
def isOperator (n : Name) : Bool :=
  match n.occ.toList with
  | [] => true
  | c :: _ => !(Text.isLetter c || c == '_' || n.occ == "[]" || n.occ == "()")

def isExternal (n : Name) : Bool := n.module == preludeModule

def qualified (n : Name) : String := n.module ++ "." ++ n.occ

end Name

/-- Constructor operators begin with a colon. -/
def isConOperator (op : String) : Bool := op.toList.head? == some ':'

end TypeLens
