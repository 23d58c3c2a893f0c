import TypeLens.Entity

/-!
The tree of a module with its types. Occurrences of polymorphic names carry their type arguments and
the dictionaries for their class constraints.
-/

namespace TypeLens.Typed

/-- An identifier as its occurrences see it. -/
structure Ident where
  name : Name
  scheme : Scheme
deriving Repr, DecidableEq

structure DictVar where
  name : Name
  pred : Pred
deriving Repr, DecidableEq

mutual

/-- How a class constraint is satisfied. -/
inductive Evidence
  /-- An instance, with evidence for its context. -/
  | byInstance (inst : Instance) (typeArgs : List Ty) (args : List Hole)
  | byParam (var : DictVar)

/-- A place for the evidence of a constraint. -/
inductive Hole
  | unsolved (id : Nat) (pred : Pred)
  | solved (pred : Pred) (evidence : Evidence)

end

deriving instance Repr for Evidence, Hole

inductive Pat
  | var (id : Ident) (loc : Span)
  | wild (ty : Ty) (loc : Span)
  | lit (value : Literal) (loc : Span)
  | con (con : Name) (typeArgs : List Ty) (args : List Pat) (ty : Ty) (loc : Span)
  | par (pat : Pat) (loc : Span)
deriving Repr

def Pat.loc : Pat → Span
  | .var _ l => l
  | .wild _ l => l
  | .lit _ l => l
  | .con _ _ _ _ l => l
  | .par _ l => l

/-- The type of the values that a pattern is matched against. -/
def Pat.ty : Pat → Ty
  | .var i _ => i.scheme.body
  | .wild t _ => t
  | .lit v _ => v.ty
  | .con _ _ _ t _ => t
  | .par p _ => p.ty

/-- What a name in an expression refers to. -/
inductive Head
  | var (id : Ident)
  | con (name : Name) (scheme : Scheme)
deriving Repr

def Head.scheme : Head → Scheme
  | .var i => i.scheme
  | .con _ s => s

/-- A monomorphic identifier of a binding group with its generalised counterpart. -/
structure Export where
  poly : Ident
  mono : Ident
deriving Repr, DecidableEq

mutual

inductive Expr
  /-- A name at its own type. -/
  | head (h : Head) (loc : Span)
  /-- A polymorphic name at type arguments, with its dictionaries. -/
  | inst (h : Head) (typeArgs : List Ty) (dicts : List Hole) (loc : Span)
  | lit (value : Literal) (loc : Span)
  | app (fn arg : Expr) (loc : Span)
  | opApp (left op right : Expr) (loc : Span)
  | lambda (group : MatchGroup) (loc : Span)
  | letIn (binds : List Bind) (body : Expr) (loc : Span)
  | ifThenElse (cond yes no : Expr) (loc : Span)
  | caseOf (scrutinee : Expr) (group : MatchGroup) (loc : Span)
  | list (elems : List Expr) (elemTy : Ty) (loc : Span)
  | par (expr : Expr) (loc : Span)

inductive Match
  | mk (pats : List Pat) (rhs : Expr) (loc : Span)

/-- Equations with their common argument types and result type. -/
inductive MatchGroup
  | mk (rows : List Match) (argTys : List Ty) (resTy : Ty)

inductive Bind
  | fn (id : Ident) (group : MatchGroup) (loc : Span)
  | pat (pat : Pat) (rhs : Expr) (binders : List Ident) (loc : Span)
  /-- A binding group, generalised over type variables and dictionaries. -/
  | abs (tvs : List String) (dicts : List DictVar) (exports : List Export) (binds : List Bind)
      (loc : Span)

end

def Expr.loc : Expr → Span
  | .head _ l => l
  | .inst _ _ _ l => l
  | .lit _ l => l
  | .app _ _ l => l
  | .opApp _ _ _ l => l
  | .lambda _ l => l
  | .letIn _ _ l => l
  | .ifThenElse _ _ _ l => l
  | .caseOf _ _ l => l
  | .list _ _ l => l
  | .par _ l => l

def Match.pats : Match → List Pat
  | .mk ps _ _ => ps

def Match.rhs : Match → Expr
  | .mk _ e _ => e

def Match.loc : Match → Span
  | .mk _ _ l => l

namespace MatchGroup

def rows : MatchGroup → List Match
  | .mk ms _ _ => ms

def argTys : MatchGroup → List Ty
  | .mk _ ts _ => ts

def resTy : MatchGroup → Ty
  | .mk _ _ t => t

def ty (g : MatchGroup) : Ty := Ty.fns g.argTys g.resTy

end MatchGroup

def Bind.loc : Bind → Span
  | .fn _ _ l => l
  | .pat _ _ _ l => l
  | .abs _ _ _ _ l => l

end TypeLens.Typed
