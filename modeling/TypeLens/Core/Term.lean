import TypeLens.Ty.Scheme

/-!
Core terms: a lambda calculus in which types and dictionaries are arguments like others, and
patterns are one constructor deep. The type of a term can be read off.
-/

namespace TypeLens.Core

structure Binder where
  name : Name
  ty : Ty
deriving Repr, DecidableEq

inductive AltCon
  | data (con : Name)
  | lit (value : Literal)
  | default
deriving Repr, DecidableEq

mutual

inductive Term
  | var (name : Name) (ty : Ty)
  | lit (value : Literal)
  | app (fn arg : Term)
  | tyApp (fn : Term) (args : List Ty)
  | lam (binder : Binder) (body : Term)
  | tyLam (tvs : List String) (body : Term)
  | letIn (bind : Bind) (body : Term)
  /-- `ty` is the type of all right-hand sides. -/
  | caseOf (scrutinee : Term) (binder : Binder) (ty : Ty) (alts : List Alt)
  /-- A term of which nothing is known. -/
  | blank

inductive Alt
  | mk (con : AltCon) (binders : List Binder) (rhs : Term)

/-- One definition, or several that may refer to each other. -/
inductive Bind
  | mk (pairs : List Pair) (recursive : Bool)

inductive Pair
  | mk (binder : Binder) (rhs : Term)

end

def Pair.binder : Pair → Binder
  | .mk b _ => b

def Pair.rhs : Pair → Term
  | .mk _ t => t

def Bind.pairs : Bind → List Pair
  | .mk ps _ => ps

/-- A definition that does not refer to itself. -/
def Bind.single (b : Binder) (t : Term) : Bind := .mk [.mk b t] false

def Binder.ref (b : Binder) : Term := .var b.name b.ty

inductive TypeError
  | notAFunction
  | application (e : TypeApplicationError)
  | unknownTerm
deriving DecidableEq, Repr

def TypeError.message : TypeError → String
  | .notAFunction => "application of a term that is not a function"
  | .application .notPolymorphic => "type application to non-polymorphic type"
  | .application .tooManyArguments => "too many type arguments"
  | .unknownTerm => "unknown core term CoreExpr"

/-- The type of a term. Arguments and definitions are not looked at. -/
def Term.type : Term → Except TypeError Ty
  | .var _ t => .ok t
  | .lit v => .ok v.ty
  | .app f _ => do
    match (← f.type).splitFn? with
    | some (_, t) => return t
    | none => throw .notAFunction
  | .tyApp f ts => do ((← f.type).instantiate ts).mapError .application
  | .lam b e => return .fn b.ty (← e.type)
  | .tyLam tvs e => do
    let t ← e.type
    return if tvs.isEmpty then t else .forAll tvs t
  | .letIn _ e => e.type
  | .caseOf _ _ t _ => .ok t
  | .blank => .error .unknownTerm

end TypeLens.Core
