import TypeLens.Entity

/-!
The tree of a module as it is written. Operators stand in a row with their operands until their
fixities are known.
-/

namespace TypeLens.Surface

inductive TypeExpr
  | var (name : String) (loc : Span)
  /-- A constructor with its arguments; `[]` is the constructor of lists. -/
  | con (name : String) (args : List TypeExpr) (loc : Span)
  | fn (arg res : TypeExpr) (loc : Span)
deriving Repr, Inhabited

def TypeExpr.loc : TypeExpr → Span
  | .var _ l => l
  | .con _ _ l => l
  | .fn _ _ l => l

structure PredExpr where
  cls : String
  tyvar : String
  loc : Span
deriving Repr, DecidableEq

structure QualType where
  context : List PredExpr
  body : TypeExpr
  loc : Span
deriving Repr, Inhabited

inductive Pat
  | var (name : String) (loc : Span)
  | wild (loc : Span)
  | lit (value : Literal) (loc : Span)
  | con (name : String) (args : List Pat) (loc : Span)
  | par (pat : Pat) (loc : Span)
deriving Repr, Inhabited

def Pat.loc : Pat → Span
  | .var _ l => l
  | .wild l => l
  | .lit _ l => l
  | .con _ _ l => l
  | .par _ l => l

/-- An operator between two operands. -/
structure OpRef where
  name : String
  loc : Span
deriving Repr, DecidableEq

mutual

inductive Expr
  | var (name : String) (loc : Span)
  | con (name : String) (loc : Span)
  | lit (value : Literal) (loc : Span)
  | app (fn arg : Expr) (loc : Span)
  /-- Operands with operators between them. -/
  | row (first : Expr) (rest : List Operand) (loc : Span)
  | lambda (pats : List Pat) (body : Expr) (loc : Span)
  | letIn (binds : List Binding) (body : Expr) (loc : Span)
  | ifThenElse (cond yes no : Expr) (loc : Span)
  | caseOf (scrutinee : Expr) (alts : List Alt) (loc : Span)
  | list (elems : List Expr) (loc : Span)
  | par (expr : Expr) (loc : Span)

/-- An operand with the operator before it. -/
inductive Operand
  | mk (op : OpRef) (expr : Expr)

inductive Alt
  | mk (pat : Pat) (body : Expr) (loc : Span)

/-- The part of an equation that follows the defined name. -/
inductive Match
  | mk (pats : List Pat) (rhs : Expr) (loc : Span)

/-- The equations of one function. -/
inductive FunBind
  | mk (name : String) (nameLoc : Span) (first : Match) (rest : List Match) (loc : Span)

inductive PatBind
  | mk (pat : Pat) (rhs : Expr) (loc : Span)

inductive Binding
  | fn (b : FunBind)
  | pat (b : PatBind)

end

instance : Inhabited Expr := ⟨.con "" .unknown⟩

def Expr.loc : Expr → Span
  | .var _ l => l
  | .con _ l => l
  | .lit _ l => l
  | .app _ _ l => l
  | .row _ _ l => l
  | .lambda _ _ l => l
  | .letIn _ _ l => l
  | .ifThenElse _ _ _ l => l
  | .caseOf _ _ l => l
  | .list _ l => l
  | .par _ l => l

def Match.pats : Match → List Pat
  | .mk ps _ _ => ps

def Match.rhs : Match → Expr
  | .mk _ e _ => e

def Match.loc : Match → Span
  | .mk _ _ l => l

namespace FunBind

def name : FunBind → String
  | .mk n _ _ _ _ => n

def nameLoc : FunBind → Span
  | .mk _ l _ _ _ => l

def first : FunBind → Match
  | .mk _ _ m _ _ => m

def equations : FunBind → List Match
  | .mk _ _ m ms _ => m :: ms

def loc : FunBind → Span
  | .mk _ _ _ _ l => l

end FunBind

def PatBind.pat : PatBind → Pat
  | .mk p _ _ => p

def PatBind.rhs : PatBind → Expr
  | .mk _ e _ => e

def PatBind.loc : PatBind → Span
  | .mk _ _ l => l

def Binding.loc : Binding → Span
  | .fn b => b.loc
  | .pat b => b.loc

mutual

/-- The variables that a pattern binds, from left to right. -/
def Pat.binders : Pat → List (String × Span)
  | .var n l => [(n, l)]
  | .wild _ => []
  | .lit _ _ => []
  | .con _ args _ => Pat.bindersList args
  | .par p _ => p.binders

def Pat.bindersList : List Pat → List (String × Span)
  | [] => []
  | p :: ps => p.binders ++ Pat.bindersList ps

end

/-- The names that a binding defines. -/
def Binding.binders : Binding → List (String × Span)
  | .fn b => [(b.name, b.nameLoc)]
  | .pat b => b.pat.binders

structure ImportDecl where
  module : String
  loc : Span
deriving Repr, DecidableEq

structure ConDecl where
  name : String
  args : List TypeExpr
  loc : Span
deriving Repr

structure DataDecl where
  name : String
  tyvars : List String
  cons : List ConDecl
  loc : Span
  nameLoc : Span
deriving Repr

/-- Names with a common type. -/
structure TypeSig where
  names : List (String × Span)
  ty : QualType
  loc : Span
deriving Repr

/-- An identifier without equations. -/
structure PrimDecl where
  sig : TypeSig
  loc : Span
deriving Repr

structure FixityDecl where
  fixity : Fixity
  ops : List String
  loc : Span
deriving Repr, DecidableEq

structure ClassDecl where
  name : String
  tyvar : String
  sigs : List TypeSig
  loc : Span
  nameLoc : Span
deriving Repr

structure InstanceDecl where
  context : List PredExpr
  cls : String
  head : TypeExpr
  binds : List FunBind
  loc : Span

inductive Decl
  | data (d : DataDecl)
  | sig (s : TypeSig)
  | prim (p : PrimDecl)
  | fixity (f : FixityDecl)
  | cls (c : ClassDecl)
  | inst (i : InstanceDecl)
  | bind (b : Binding)

structure Module where
  name : String
  imports : List ImportDecl
  decls : List Decl
  loc : Span
  headerLoc : Span

namespace Module

def empty (name : String) : Module := ⟨name, [], [], .unknown, .unknown⟩

/-- The value bindings among the declarations. -/
def bindings (m : Module) : List Binding :=
  m.decls.filterMap fun
    | .bind b => some b
    | _ => none

end Module

end TypeLens.Surface
