import TypeLens.Check.Problem
import TypeLens.Globals
import TypeLens.Typed.Resolve

/-!
The state of checking: problems, the substitution, constraints that wait, and counters.
-/

namespace TypeLens.Check

open Typed (Ident DictVar Evidence Hole)

/-- A class constraint that an occurrence of `use` raised, and the hole for its evidence. -/
structure Wanted where
  pred : Pred
  hole : Nat
  loc : Span
  use : String
deriving Repr

abbrev Inferred := Typed.Expr × Ty

structure State where
  /-- The latest report stands first. -/
  reports : List Report := []
  subst : Subst := .empty
  uvars : Nat := 0
  uniques : Nat := 0
  holes : Nat := 0
  /-- In the order in which they were raised. -/
  wanted : List Wanted := []
  /-- The latest solution stands first. -/
  solutions : List (Nat × Evidence) := []
  /-- The expressions that are done, each with the type that was found for it; the latest first. -/
  inferred : List Inferred := []

abbrev CheckM := StateM State

/-- The identifiers of the enclosing binders, innermost first. -/
abbrev Locals := List (String × Ident)

/-- What an expression can refer to. -/
structure Env where
  globals : Globals
  locals : Locals := []
  /-- The dictionary parameters of the enclosing signatures, innermost last. -/
  givens : List DictVar := []
  /-- The type variables of the enclosing signatures. -/
  rigid : List String := []

def Env.extend (env : Env) (ids : Locals) : Env := { env with locals := ids ++ env.locals }

def Env.module (env : Env) : String := env.globals.module

def report (p : Problem) (loc : Span) : CheckM Unit :=
  modify fun s => { s with reports := ⟨p, loc⟩ :: s.reports }

def reportIf (c : Bool) (p : Problem) (loc : Span) : CheckM Unit :=
  if c then report p loc else return

/-- Makes an expression with its type part of what was found. -/
def note (e : Inferred) : CheckM Inferred :=
  modifyGet fun s => (e, { s with inferred := e :: s.inferred })

/-- A new unification variable; they count from one. -/
def freshUvar : CheckM Ty :=
  modifyGet fun s => (.uvar (s.uvars + 1), { s with uvars := s.uvars + 1 })

def freshFor {α : Type} : List α → CheckM (List Ty)
  | [] => return []
  | _ :: xs => do
    let t ← freshUvar
    return t :: (← freshFor xs)

/-- A new number for a local name; they count from one. -/
def freshUnique : CheckM Nat :=
  modifyGet fun s => (s.uniques + 1, { s with uniques := s.uniques + 1 })

def freshHole : CheckM Nat := modifyGet fun s => (s.holes, { s with holes := s.holes + 1 })

def wantedFor (loc : Span) (use : String) : List Pred → CheckM (List Wanted)
  | [] => return []
  | p :: ps => do
    let h ← freshHole
    return ⟨p, h, loc, use⟩ :: (← wantedFor loc use ps)

def localName (env : Env) (occ : String) : CheckM Name := do
  return ⟨occ, env.module, .value, ← freshUnique⟩

def dictName (env : Env) (cls : Name) : CheckM Name := localName env ("$d" ++ cls.occ)

/-- What a type stands for by now. -/
def zonk (t : Ty) : CheckM Ty :=
  modifyGet fun s =>
    let r := s.subst.zonk t
    (r.1, { s with subst := r.2 })

def zonkPred (p : Pred) : CheckM Pred := return ⟨p.cls, ← zonk p.arg⟩

/-- Makes two types equal; if they cannot be, the report shows what has become of them. -/
def unify (expected actual : Ty) (loc : Span) : CheckM Unit := do
  let r := (← get).subst.unify expected actual
  modify ({ · with subst := r.1 })
  match r.2 with
  | none => return
  | some .clash => report (.mismatch (← zonk expected) (← zonk actual)) loc
  | some (.infinite m t) => report (.infiniteType m t) loc

def uvarsOf (σ : Subst) (ids : Locals) : List UVar :=
  ids.flatMap fun i => (σ.apply i.2.scheme.body).uvarOccurrences

/-- The one name that an occurrence means. -/
def resolve (g : Globals) (space : Namespace) (role : Role) (occ : String) :
    Except Problem Name :=
  match g.scope.lookup space occ with
  | [] => .error (.notInScope role occ)
  | [d] => .ok d.name
  | ds => .error (.ambiguousName occ (ds.map (·.name)))

end TypeLens.Check
