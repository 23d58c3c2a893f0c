import TypeLens.Typed.Tree
import TypeLens.Ty.Subst

/-!
The last step of checking: unification variables give way to their images, and holes to the evidence
that was found for them.
-/

namespace TypeLens.Typed

/-- What is known of unification variables and of holes. -/
structure Answers where
  images : Subst
  evidence : Table Nat Evidence

namespace Answers

def ty (a : Answers) (t : Ty) : Ty := a.images.apply t

def pred (a : Answers) (p : Pred) : Pred := a.images.applyPred p

def ident (a : Answers) (i : Ident) : Ident := ⟨i.name, i.scheme.substUvars a.images.image?⟩

def dictVar (a : Answers) (d : DictVar) : DictVar := ⟨d.name, a.pred d.pred⟩

/-- Evidence for a hole whose own evidence is complete. -/
def hole (a : Answers) : Hole → Hole
  | .unsolved id p =>
    match a.evidence.get? id with
    | some e => .solved (a.pred p) e
    | none => .unsolved id (a.pred p)
  | .solved p e => .solved p e

def evidenceOf (a : Answers) : Evidence → Evidence
  | .byInstance i ts args => .byInstance i (ts.map a.ty) (args.map a.hole)
  | .byParam d => .byParam (a.dictVar d)

/-- The solutions come latest first: what a solution refers to was solved after it. -/
def ofSolutions (images : Subst) (solutions : List (Nat × Evidence)) : Answers :=
  solutions.foldl (fun a (v, e) => ⟨a.images, (v, a.evidenceOf e) :: a.evidence⟩) ⟨images, []⟩

mutual

def pat (a : Answers) : Pat → Pat
  | .var i l => .var (a.ident i) l
  | .wild t l => .wild (a.ty t) l
  | .lit v l => .lit v l
  | .con c ts ps t l => .con c (ts.map a.ty) (pats a ps) (a.ty t) l
  | .par p l => .par (pat a p) l

def pats (a : Answers) : List Pat → List Pat
  | [] => []
  | p :: ps => pat a p :: pats a ps

end

def head (a : Answers) : Head → Head
  | .var i => .var (a.ident i)
  | .con n s => .con n (s.substUvars a.images.image?)

mutual

def expr (a : Answers) : Expr → Expr
  | .head h l => .head (a.head h) l
  | .inst h ts ds l => .inst (a.head h) (ts.map a.ty) (ds.map a.hole) l
  | .lit v l => .lit v l
  | .app f x l => .app (expr a f) (expr a x) l
  | .opApp x op y l => .opApp (expr a x) (expr a op) (expr a y) l
  | .lambda g l => .lambda (group a g) l
  | .letIn bs e l => .letIn (binds a bs) (expr a e) l
  | .ifThenElse c y n l => .ifThenElse (expr a c) (expr a y) (expr a n) l
  | .caseOf s g l => .caseOf (expr a s) (group a g) l
  | .list es t l => .list (exprs a es) (a.ty t) l
  | .par e l => .par (expr a e) l

def exprs (a : Answers) : List Expr → List Expr
  | [] => []
  | e :: es => expr a e :: exprs a es

def group (a : Answers) : MatchGroup → MatchGroup
  | .mk ms ts t => .mk (rows a ms) (ts.map a.ty) (a.ty t)

def rows (a : Answers) : List Match → List Match
  | [] => []
  | .mk ps e l :: ms => .mk (pats a ps) (expr a e) l :: rows a ms

def bind (a : Answers) : Bind → Bind
  | .fn i g l => .fn (a.ident i) (group a g) l
  | .pat p e is l => .pat (pat a p) (expr a e) (is.map a.ident) l
  | .abs tvs ds xs bs l =>
    let exports := xs.map fun x => ⟨a.ident x.poly, a.ident x.mono⟩
    .abs tvs (ds.map a.dictVar) exports (binds a bs) l

def binds (a : Answers) : List Bind → List Bind
  | [] => []
  | b :: bs => bind a b :: binds a bs

end

end Answers

end TypeLens.Typed
