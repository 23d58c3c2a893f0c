import TypeLens.Ty.Scheme
import TypeLens.Scope

/-!
Types as one line of source text: quantifiers are hidden and constraints stand before `=>`.
-/

namespace TypeLens

/-- Which names are written with their module. -/
abbrev Policy := Name → Bool

def Policy.never : Policy := fun _ => false

/-- Names that their spelling does not clearly mean are qualified, local names and `->` never. -/
def Scope.policy (s : Scope) : Policy := fun n =>
  !(n == Builtin.funTyCon || n.unique != 0) && !s.unqualified n

def Name.render (p : Policy) (n : Name) : String := if p n then n.qualified else n.occ

/-- A name before its arguments. -/
def Name.renderPrefixed (p : Policy) (n : Name) : String :=
  if n.isOperator then "(" ++ n.render p ++ ")" else n.render p

/-- A name between its arguments. -/
def Name.renderBetween (p : Policy) (n : Name) : String :=
  if n.isOperator then n.render p else "`" ++ n.render p ++ "`"

/-- Where a type stands. -/
inductive Place
  | top
  | fnArg
  | conArg
deriving DecidableEq, Repr

/-- Parentheses where they are needed. -/
def parens (needed : Bool) (text : String) : String := if needed then "(" ++ text ++ ")" else text

/-- Rendered constraints before a type. -/
def renderContext : List String → String
  | [] => ""
  | [c] => c ++ " => "
  | cs => "(" ++ ", ".intercalate cs ++ ") => "

def Ty.isPred : Ty → Bool
  | .pred _ _ => true
  | _ => false

mutual

/-- A type at a place, below the rendered constraints `ctx` of the function type around it. -/
def Ty.renderAt (p : Policy) (place : Place) (ctx : List String) : Ty → String
  | .var v => renderContext ctx ++ v
  | .uvar m => renderContext ctx ++ ("t" ++ toString m)
  | .con c => renderContext ctx ++ c.renderPrefixed p
  | .forAll _ t => renderContext ctx ++ t.renderAt p place []
  | .pred c t =>
    renderContext ctx ++ parens (place = .conArg) (c.render p ++ " " ++ t.renderAt p .conArg [])
  | .app (.app (.con c) t) u =>
    if c = Builtin.funTyCon then
      parens (place ≠ .top)
        (if t.isPred then u.renderAt p .top (ctx ++ [t.renderAt p .top []])
        else renderContext ctx ++ (t.renderAt p .fnArg [] ++ " -> " ++ u.renderAt p .top []))
    else
      renderContext ctx ++ parens (place = .conArg)
        (c.renderPrefixed p ++ " " ++ t.renderAt p .conArg [] ++ " " ++ u.renderAt p .conArg [])
  | .app (.con c) t =>
    renderContext ctx ++
      if c = Builtin.listTyCon then "[" ++ t.renderAt p .top [] ++ "]"
      else parens (place = .conArg) (c.renderPrefixed p ++ " " ++ t.renderAt p .conArg [])
  | .app t u =>
    renderContext ctx ++
      parens (place = .conArg) (t.renderSpine p ++ " " ++ u.renderAt p .conArg [])

/-- A head with its arguments, whatever the head is. -/
def Ty.renderSpine (p : Policy) : Ty → String
  | .app t u => t.renderSpine p ++ " " ++ u.renderAt p .conArg []
  | .var v => v
  | .uvar m => "t" ++ toString m
  | .con c => c.renderPrefixed p
  | .forAll _ t => t.renderAt p .conArg []
  | .pred c t => "(" ++ c.render p ++ " " ++ t.renderAt p .conArg [] ++ ")"

end

def Ty.render (p : Policy) (t : Ty) : String := t.renderAt p .top []

def Pred.render (p : Policy) (c : Pred) : String := c.ty.render p

/-- A type under a context. -/
def renderQualified (p : Policy) (context : List Ty) (body : Ty) : String :=
  renderContext (context.map (Ty.render p)) ++ body.render p

def Scheme.render (p : Policy) (s : Scheme) : String :=
  renderQualified p (s.preds.map Pred.ty) s.body

end TypeLens
