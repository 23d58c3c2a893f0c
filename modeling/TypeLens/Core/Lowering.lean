import TypeLens.Core.Term
import TypeLens.Render.Entity
import TypeLens.Typed.Tree

/-!
From typed trees to core terms. Equations are tried in order: each falls through to the next one,
and the last one to `patError`.
-/

namespace TypeLens.Core

open Typed (Ident DictVar Evidence Hole Head Export MatchGroup)

/-- What lowering has to know of the module. -/
structure Context where
  module : String
  scope : Scope
  entity? : Name → Option Entity

inductive LowerError
  | unsolved (p : Pred)
  | noDataCon (occ : String)
  | illTyped (e : TypeError)
deriving DecidableEq, Repr

def LowerError.message (scope : Scope) : LowerError → String
  | .unsolved p => "unsolved constraint (" ++ p.render scope.policy ++ ")"
  | .noDataCon occ => "no data constructor '" ++ occ ++ "' in scope"
  | .illTyped e => e.message

/-- The state is the number of binders that were made up. -/
abbrev LowerM := StateT Nat (Except LowerError)

namespace Lower

variable (c : Context)

def freshBinder (t : Ty) : LowerM Binder :=
  modifyGet fun n =>
    (⟨⟨"ds" ++ toString (n + 1), c.module, .value, -((n + 1 : Nat) : Int)⟩, t⟩, n + 1)

def freshBinders : List Ty → LowerM (List Binder)
  | [] => return []
  | t :: ts => do
    let b ← freshBinder c t
    return b :: (← freshBinders ts)

def typeOf (t : Term) : LowerM Ty :=
  match t.type with
  | .ok t => return t
  | .error e => throw (.illTyped e)

def dataCon (n : Name) : LowerM DataCon :=
  match c.entity? n with
  | some (.dataCon d) => return d
  | _ => throw (.noDataCon n.occ)

def conVar (n : Name) (ts : List Ty) : LowerM Term := do
  let d ← dataCon c n
  return .tyApp (.var n d.scheme.toTy) ts

def patErrorScheme : Scheme :=
  match c.entity? Builtin.patError with
  | some (.ident i) => i.scheme
  | _ => ⟨["a"], [], .var "a"⟩

def patError (t : Ty) : Term := .tyApp (.var Builtin.patError (patErrorScheme c).toTy) [t]

def atTypes (t : Term) (ts : List Ty) : Term := if ts.isEmpty then t else .tyApp t ts

def lams (bs : List Binder) (t : Term) : Term := bs.foldr .lam t

def lets (bs : List Bind) (t : Term) : Term := bs.foldr .letIn t

mutual

def evidence : Evidence → Except LowerError Term
  | .byParam d => return .var d.name d.pred.ty
  | .byInstance i ts hs => do
    let args ← holes hs
    return args.foldl .app (atTypes (.var i.name i.dictTy) ts)

def hole : Hole → Except LowerError Term
  | .unsolved _ p => throw (.unsolved p)
  | .solved _ e => evidence e

def holes : List Hole → Except LowerError (List Term)
  | [] => return []
  | h :: hs => do
    let t ← hole h
    return t :: (← holes hs)

end

def head : Head → Term
  | .var i => .var i.name i.scheme.toTy
  | .con n s => .var n s.toTy

-- Patterns

mutual

def matchPat (b : Binder) (success failure : Term) : Typed.Pat → LowerM Term
  | .wild _ _ => return success
  | .par p _ => matchPat b success failure p
  | .var i _ => return .letIn (.single ⟨i.name, i.scheme.body⟩ b.ref) success
  | .lit v _ => do
    let b' ← freshBinder c v.ty
    return .caseOf b.ref b' (← typeOf success)
      [.mk (.lit v) [] success, .mk .default [] failure]
  | .con n ts ps t _ => do
    let d ← dataCon c n
    let fields ← freshBinders c (d.argTypes.map (·.substVars (assign d.scheme.tvs ts)))
    let inner ← matchPats success failure fields ps
    let b' ← freshBinder c t
    return .caseOf b.ref b' (← typeOf success)
      [.mk (.data n) fields inner, .mk .default [] failure]

def matchPats (success failure : Term) : List Binder → List Typed.Pat → LowerM Term
  | b :: bs, p :: ps => do
    let inner ← matchPats success failure bs ps
    matchPat b inner failure p
  | _, _ => return success

end

-- Expressions and bindings

/-- A list of terms that are made with the constructor `:`, one for each element. -/
def consAll (elemTy : Ty) (nil : Term) : List (LowerM Term) → LowerM Term
  | [] => return nil
  | e :: es => do
    let tail ← consAll elemTy nil es
    let cons ← conVar c Builtin.consCon [elemTy]
    return .app (.app cons (← e)) tail

/-- The definitions of the variables of a pattern, each of which matches the value anew. -/
def selections (b : Binder) (p : Typed.Pat) : List Ident → LowerM (List Bind)
  | [] => return []
  | i :: is => do
    let t := i.scheme.body
    let e ← matchPat c b (.var i.name t) (patError c t) p
    return .single ⟨i.name, i.scheme.toTy⟩ e :: (← selections b p is)

/-- The definition of a generalised identifier by its whole group. -/
def exportBind (tvs : List String) (dicts : List DictVar) (inner : List Bind) (x : Export) : Bind :=
  let body := lets inner (.var x.mono.name x.mono.scheme.toTy)
  let body := lams (dicts.map fun d => ⟨d.name, d.pred.ty⟩) body
  .single ⟨x.poly.name, x.poly.scheme.toTy⟩ (if tvs.isEmpty then body else .tyLam tvs body)

mutual

def expr : Typed.Expr → LowerM Term
  | .head h _ => return head h
  | .inst h ts ds _ => do
    let args ← holes ds
    return args.foldl .app (atTypes (head h) ts)
  | .lit v _ => return .lit v
  | .app f a _ => do
    let f' ← expr f
    return .app f' (← expr a)
  | .opApp x op y _ => do
    let op' ← expr op
    let x' ← expr x
    return .app (.app op' x') (← expr y)
  | .par e _ => expr e
  | .list es t _ => do
    let nil ← conVar c Builtin.nilCon [t]
    consAll c t nil (exprs es)
  | .ifThenElse e y n _ => do
    let y' ← expr y
    let n' ← expr n
    let e' ← expr e
    let b ← freshBinder c .bool
    return .caseOf e' b (← typeOf y')
      [.mk (.data Builtin.falseCon) [] n', .mk (.data Builtin.trueCon) [] y']
  | .lambda g _ => lambda g
  | .caseOf e (.mk ms ts t) _ => do
    let b ← freshBinder c (ts.headD t)
    let body ← rows [b] (patError c t) ms
    return .letIn (.single b (← expr e)) body
  | .letIn bs e _ => do
    let e' ← expr e
    letBinds e' bs

def exprs : List Typed.Expr → List (LowerM Term)
  | [] => []
  | e :: es => expr e :: exprs es

def lambda : MatchGroup → LowerM Term
  | .mk ms ts t => do
    let bs ← freshBinders c ts
    return lams bs (← rows bs (patError c t) ms)

/-- Equations on the values of binders; the last one falls through to `failure`. -/
def rows (bs : List Binder) (failure : Term) : List Typed.Match → LowerM Term
  | [] => return failure
  | .mk ps e _ :: ms => do
    let next ← rows bs failure ms
    let success ← expr e
    matchPats c success next bs ps

/-- Local bindings around a body, the last ones lowered first. -/
def letBinds (body : Term) : List Typed.Bind → LowerM Term
  | [] => return body
  | b :: bs => do
    let inner ← letBinds body bs
    return lets (← bind b) inner

def bind : Typed.Bind → LowerM (List Bind)
  | .fn i g _ => do
    return [.mk [.mk ⟨i.name, i.scheme.toTy⟩ (← lambda g)] true]
  | .pat p e is _ => do
    let b ← freshBinder c p.ty
    let e' ← expr e
    return .single b e' :: (← selections c b p is)
  | .abs tvs ds xs bs _ => do
    let inner ← binds bs
    return xs.map (exportBind tvs ds inner)

def binds : List Typed.Bind → LowerM (List Bind)
  | [] => return []
  | b :: bs => do
    let b' ← bind b
    return b' ++ (← binds bs)

end

end Lower

/-- The core term of an expression, if it has one that has a type. -/
def lowerExpr (c : Context) (e : Typed.Expr) : Except LowerError Term := do
  let (t, _) ← (Lower.expr c e).run 0
  match t.type with
  | .ok _ => return t
  | .error e => throw (.illTyped e)

def typeOfExpr (c : Context) (e : Typed.Expr) : Except LowerError Ty := do
  ((← lowerExpr c e).type).mapError .illTyped

def lowerBind (c : Context) (b : Typed.Bind) : Except LowerError (List Bind) := do
  return (← (Lower.bind c b).run 0).1

end TypeLens.Core
