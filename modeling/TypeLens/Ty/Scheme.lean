import TypeLens.Ty.Basic

namespace TypeLens

namespace Builtin

/-! The names that the checker knows without looking them up. -/

def typeName (occ : String) : Name := ⟨occ, preludeModule, .type, 0⟩

def valueName (occ : String) : Name := ⟨occ, preludeModule, .value, 0⟩

def funTyCon : Name := typeName "->"
def listTyCon : Name := typeName "[]"
def intTyCon : Name := typeName "Int"
def stringTyCon : Name := typeName "String"
def boolTyCon : Name := typeName "Bool"
def nilCon : Name := valueName "[]"
def consCon : Name := valueName ":"
def trueCon : Name := valueName "True"
def falseCon : Name := valueName "False"
def patError : Name := valueName "patError"

end Builtin

namespace Ty

open Builtin

def int : Ty := .con intTyCon
def string : Ty := .con stringTyCon
def bool : Ty := .con boolTyCon

def list (elem : Ty) : Ty := .app (.con listTyCon) elem

def fn (arg res : Ty) : Ty := .app (.app (.con funTyCon) arg) res

/-- `t₁ -> … -> tₙ -> res`. -/
def fns (args : List Ty) (res : Ty) : Ty := args.foldr fn res

def splitFn? : Ty → Option (Ty × Ty)
  | .app (.app (.con c) arg) res => if c = funTyCon then some (arg, res) else none
  | _ => none

/-- Up to `n` argument types of a function type, and what is left. -/
def splitFns : Nat → Ty → List Ty × Ty
  | 0, t => ([], t)
  | n + 1, t =>
    match t.splitFn? with
    | some (arg, res) => (splitFns n res).map (arg :: ·) id
    | none => ([], t)

@[simp] theorem splitFn?_fn (t u : Ty) : (fn t u).splitFn? = some (t, u) := by
  simp [fn, splitFn?]

theorem eq_fn_of_splitFn? {t p q : Ty} (h : t.splitFn? = some (p, q)) : t = fn p q := by
  unfold splitFn? at h
  split at h
  · split at h
    · next c arg res hc =>
      obtain ⟨rfl, rfl⟩ : arg = p ∧ res = q := by simpa using h
      rw [hc]
      rfl
    · cases h
  · cases h

theorem eq_fn_of_splitFns {t u p q : Ty} (h : t.splitFns 2 = ([p, q], u)) :
    t = .fn p (.fn q u) := by
  unfold splitFns at h
  split at h
  · next p' res h₁ =>
    unfold splitFns at h
    split at h
    · next q' res' h₂ =>
      obtain ⟨⟨rfl, rfl⟩, rfl⟩ : (p' = p ∧ q' = q) ∧ res' = u := by
        simpa [splitFns, Prod.map] using h
      rw [eq_fn_of_splitFn? h₁, eq_fn_of_splitFn? h₂]
    · simp [Prod.map] at h
  · simp at h

theorem substVars_fns (f : String → Option Ty) (ts : List Ty) (t : Ty) :
    (fns ts t).substVars f = fns (ts.map (·.substVars f)) (t.substVars f) := by
  induction ts with
  | nil => rfl
  | cons u ts ih =>
    simp only [fns, List.foldr_cons, List.map_cons] at ih ⊢
    simp only [fn, substVars, ih]

theorem substUvars_fns (f : UVar → Option Ty) (ts : List Ty) (t : Ty) :
    (fns ts t).substUvars f = fns (ts.map (·.substUvars f)) (t.substUvars f) := by
  induction ts with
  | nil => rfl
  | cons u ts ih =>
    simp only [fns, List.foldr_cons, List.map_cons] at ih ⊢
    simp only [fn, substUvars, ih]

theorem uvarOccurrences_fns (ts : List Ty) (t : Ty) :
    (fns ts t).uvarOccurrences = ts.flatMap uvarOccurrences ++ t.uvarOccurrences := by
  induction ts with
  | nil => rfl
  | cons u ts ih =>
    simp only [fns, List.foldr_cons, List.flatMap_cons] at ih ⊢
    simp [fn, uvarOccurrences, ih]

theorem splitFns_fns (ts : List Ty) (t : Ty) : (fns ts t).splitFns ts.length = (ts, t) := by
  induction ts with
  | nil => rfl
  | cons u ts ih =>
    simp only [fns, List.foldr_cons] at ih ⊢
    simp [splitFns, ih]

end Ty

/-- Constraints become dictionary arguments under the quantifier. -/
def Ty.quantify (tvs : List String) (context : List Ty) (body : Ty) : Ty :=
  if tvs.isEmpty then .fns context body else .forAll tvs (.fns context body)

/-- `forall tvs. preds => body`. -/
structure Scheme where
  tvs : List String
  preds : List Pred
  body : Ty
deriving DecidableEq, Repr

namespace Scheme

def mono (t : Ty) : Scheme := ⟨[], [], t⟩

def isMono (s : Scheme) : Bool := s.tvs.isEmpty && s.preds.isEmpty

def toTy (s : Scheme) : Ty := .quantify s.tvs (s.preds.map Pred.ty) s.body

def substUvars (f : UVar → Option Ty) (s : Scheme) : Scheme :=
  ⟨s.tvs, s.preds.map fun p => ⟨p.cls, p.arg.substUvars f⟩, s.body.substUvars f⟩

end Scheme

def Pred.substVars (f : String → Option Ty) (p : Pred) : Pred := ⟨p.cls, p.arg.substVars f⟩

def Pred.substUvars (f : UVar → Option Ty) (p : Pred) : Pred := ⟨p.cls, p.arg.substUvars f⟩

/-- The value of a literal. -/
inductive Literal
  | int (value : Nat)
  | text (value : String)
deriving DecidableEq, Repr

def Literal.ty : Literal → Ty
  | .int _ => .int
  | .text _ => .string

end TypeLens
