import TypeLens.Check.Pattern
import TypeLens.Check.Solve
import TypeLens.OpTree
import TypeLens.Surface.Groups

/-!
Types of expressions and bindings. Binding groups are generalised over the unification variables
that their surroundings leave open.
-/

namespace TypeLens.Check

open Typed (Ident DictVar Export Head)

-- Names

/-- A name at its own type, or at new type variables with holes for its constraints. -/
def occurrence (h : Head) (occ : String) (loc : Span) : CheckM Inferred := do
  let s := h.scheme
  if s.isMono then return (← note (.head h loc, s.body))
  let typeArgs ← freshFor s.tvs
  let at_ := assign s.tvs typeArgs
  let goals ← wantedFor loc occ (s.preds.map (·.substVars at_))
  modify fun st => { st with wanted := st.wanted ++ goals }
  let dicts := goals.map fun g => .unsolved g.hole g.pred
  note (.inst h typeArgs dicts loc, s.body.substVars at_)

/-- Stands for a name that means nothing. -/
def unknownName (env : Env) (occ : String) (loc : Span) : CheckM Inferred := do
  let t ← freshUvar
  let i ← newLocal env occ t
  note (.head (.var i) loc, t)

def inferVar (env : Env) (occ : String) (loc : Span) : CheckM Inferred :=
  match env.locals.lookup occ with
  | some i => occurrence (.var i) occ loc
  | none =>
    match resolve env.globals .value .variable occ with
    | .error e => do
      report e loc
      unknownName env occ loc
    | .ok n =>
      match env.globals.entity? n with
      | some (.dataCon c) => occurrence (.con n c.scheme) occ loc
      | some (.ident i) => occurrence (.var ⟨n, i.scheme⟩) occ loc
      | _ => unknownName env occ loc

def inferCon (env : Env) (occ : String) (loc : Span) : CheckM Inferred :=
  match resolve env.globals .value .dataConstructor occ with
  | .error e => do
    report e loc
    unknownName env occ loc
  | .ok n =>
    match env.globals.entity? n with
    | some (.dataCon c) => occurrence (.con n c.scheme) occ loc
    | _ => do
      report (.notADataCon occ) loc
      unknownName env occ loc

-- Operators

/-- An expression that is still to be checked. -/
structure Part where
  loc : Span
  infer : CheckM Inferred

/-- Names of local binders have no fixity of their own. -/
def opFixity (env : Env) (op : Surface.OpRef) : Fixity :=
  if !isConOperator op.name && (env.locals.lookup op.name).isSome then .default
  else
    match resolve env.globals .value .variable op.name with
    | .ok n => env.globals.fixityOf n
    | .error _ => .default

def inferOp (env : Env) (op : Surface.OpRef) : CheckM Inferred :=
  if isConOperator op.name then inferCon env op.name op.loc else inferVar env op.name op.loc

abbrev PartTree := OpTree Surface.OpRef Part

def PartTree.loc : PartTree → Span
  | .leaf p => p.loc
  | .node l _ r => (PartTree.loc l).cover (PartTree.loc r)

def inferTree (env : Env) : PartTree → CheckM Inferred
  | .leaf p => p.infer
  | .node l op r => do
    let (l', lTy) ← inferTree env l
    let (op', opTy) ← inferOp env op
    let (r', rTy) ← inferTree env r
    let res ← freshUvar
    let e : Typed.Expr := .opApp l' op' r' ((PartTree.loc l).cover (PartTree.loc r))
    match (← zonk opTy).splitFns 2 with
    | ([p, q], t) => do
      unify p lTy (PartTree.loc l)
      unify q rTy (PartTree.loc r)
      note (e, t)
    | _ => do
      unify (Ty.fns [lTy, rTy] res) opTy op.loc
      note (e, res)

def inferRow (env : Env) (first : Part) (rest : List (Surface.OpRef × Part)) :
    CheckM Inferred := do
  let r := OpTree.resolve (opFixity env) first rest
  r.conflicts.forM fun c =>
    report (.fixityConflict c.1.name (opFixity env c.1) c.2.name (opFixity env c.2)) c.2.loc
  inferTree env r.tree

-- Equations

/-- An equation whose right-hand side is still to be checked. -/
structure Row where
  pats : List Surface.Pat
  loc : Span
  rhsLoc : Span
  rhs : Env → CheckM Inferred

def checkRow (env : Env) (argTys : List Ty) (resTy : Ty) (r : Row) : CheckM Typed.Match := do
  let (ps, bound) ← (checkPats env [] r.pats argTys).run []
  let (e, t) ← r.rhs (env.extend bound)
  unify resTy t r.rhsLoc
  return .mk ps e r.loc

/-- The equations of a function whose type is expected to be `expected`. -/
def checkGroup (env : Env) (expected : Ty) (first : Row) (rest : List Row) :
    CheckM Typed.MatchGroup := do
  let argTys ← freshFor first.pats
  let resTy ← freshUvar
  unify expected (Ty.fns argTys resTy) first.loc
  let rows ← (first :: rest).mapM (checkRow env argTys resTy)
  return .mk rows argTys resTy

-- Bindings

/-- A function whose equations are still to be checked. -/
structure FunJob where
  name : String
  nameLoc : Span
  first : Row
  rest : List Row
  loc : Span

/-- A binding whose right-hand sides are still to be checked. -/
inductive Job
  | fn (j : FunJob)
  | pat (pat : Surface.Pat) (rhs : Env → CheckM Inferred) (loc : Span)

namespace Job

def binders : Job → List (String × Span)
  | .fn j => [(j.name, j.nameLoc)]
  | .pat p _ _ => p.binders

def loc : Job → Span
  | .fn j => j.loc
  | .pat _ _ l => l

/-- Checks a binding whose group has the given identifiers. -/
def check (env : Env) (group : Bound) : Job → CheckM Typed.Bind
  | .fn j => do
    let i ←
      match group.get? j.name with
      | some i => pure i
      | none => newLocal env j.name (← freshUvar)
    let g ← checkGroup env i.scheme.body j.first j.rest
    return .fn i g j.loc
  | .pat p rhs l => do
    let (e, t) ← rhs env
    let (p', bound) ← (checkPat env group p t).run []
    return .pat p' e bound.values l

end Job

/-- The identifiers of a group before it is generalised; of a repeated binder the first counts. -/
def groupIdents (nameOf : String → CheckM Name) : Bound → List (String × Span) → CheckM Bound
  | acc, [] => return acc
  | acc, (occ, _) :: bs =>
    if acc.contains occ then groupIdents nameOf acc bs
    else do
      let n ← nameOf occ
      let t ← freshUvar
      groupIdents nameOf (acc.put occ ⟨n, .mono t⟩) bs

/-- `a` to `z`, then `a1` to `z1`, and so on. -/
def tyvarName (i : Nat) : String :=
  String.singleton (Char.ofNat ('a'.toNat + i % 26)) ++ if i < 26 then "" else toString (i / 26)

/-- The first `n` names of type variables that are not taken. -/
def freshTyvars (taken : List String) (n : Nat) : List String :=
  (((List.range (n + taken.length)).map tyvarName).filter (· ∉ taken)).take n

def skolemise (uvars : List UVar) (tvs : List String) : CheckM Unit :=
  modify fun s => { s with subst := s.subst.fixAll (uvars.zip tvs) }

/-- The identifier of a generalised group that stands for one of its monomorphic ones. -/
def generalise (σ : Subst) (tvs : List String) (dicts : List DictVar) (mono : Ident) : Ident :=
  let body := σ.apply mono.scheme.body
  let own := tvs.filter (· ∈ body.freeVars)
  let preds := (dicts.map fun d => σ.applyPred d.pred).filter fun p =>
    match p.arg with
    | .var v => v ∈ own
    | _ => false
  ⟨mono.name, own, preds, body⟩

def groupLoc (jobs : List Job) : Span :=
  match jobs.head?, jobs.getLast? with
  | some a, some b => a.loc.cover b.loc
  | _, _ => .unknown

/-- A binding group that is checked and not yet generalised. -/
structure OpenGroup where
  /-- The unification variables that were free in the surroundings before. -/
  outer : List UVar
  monos : Bound
  binds : List Typed.Bind
  raised : List Wanted

/-- The unification variables that a group is generalised over. -/
def OpenGroup.uvars (g : OpenGroup) (σ : Subst) : List UVar :=
  ((uvarsOf σ g.monos).filter (· ∉ g.outer)).eraseDups

def openGroup (env : Env) (nameOf : String → CheckM Name) (jobs : List Job) :
    CheckM OpenGroup := do
  let outer := uvarsOf (← get).subst env.locals
  let monos ← groupIdents nameOf [] (jobs.flatMap Job.binders)
  let (binds, raised) ← collecting (jobs.mapM (Job.check (env.extend monos) monos))
  return ⟨outer, monos, binds, raised⟩

/-- Generalises a group; returned with it are its identifiers. -/
def closeGroup (env : Env) (g : OpenGroup) (loc : Span) : CheckM (Typed.Bind × Bound) := do
  let uvars := g.uvars (← get).subst
  let dicts ← solve env ⟨uvars, g.outer⟩ g.raised
  let tvs := freshTyvars env.rigid uvars.length
  skolemise uvars tvs
  let σ := (← get).subst
  let polys := g.monos.map fun m => (m.1, generalise σ tvs dicts m.2)
  let exports := (polys.zip g.monos).map fun p => Export.mk p.1.2 p.2.2
  return (.abs tvs dicts exports g.binds loc, polys)

def inferGroup (env : Env) (nameOf : String → CheckM Name) (jobs : List Job) :
    CheckM (Typed.Bind × Bound) := do
  closeGroup env (← openGroup env nameOf jobs) (groupLoc jobs)

def reportRepeated (seen : List String) : List (String × Span) → CheckM Unit
  | [] => return
  | (occ, loc) :: bs => do
    reportIf (seen.contains occ) (.definedTwice occ) loc
    reportRepeated (occ :: seen) bs

/-- Local groups in order, each in the scope of those before it. -/
def inferGroups (env : Env) : List (List Job) → CheckM (List Typed.Bind × Env)
  | [] => return ([], env)
  | g :: gs => do
    let (b, polys) ← inferGroup env (localName env) g
    let (bs, env') ← inferGroups (env.extend polys) gs
    return (b :: bs, env')

def inferLocals (env : Env) (jobs : List (Surface.Dependencies × Job)) :
    CheckM (List Typed.Bind × Env) := do
  reportRepeated [] (jobs.flatMap (·.2.binders))
  inferGroups env (Surface.groupsOf jobs [])

def checkSigned (env : Env) (poly : Ident) (j : FunJob) : CheckM Typed.Bind := do
  let s := poly.scheme
  let givens ← s.preds.mapM fun p => return (⟨← dictName env p.cls, p⟩ : DictVar)
  let inner := { env with givens := env.givens ++ givens, rigid := env.rigid ++ s.tvs }
  let (g, raised) ← collecting (checkGroup inner s.body j.first j.rest)
  let outer := uvarsOf (← get).subst env.locals
  let _ ← solve inner ⟨[], outer⟩ raised
  let mono : Ident := ⟨poly.name, .mono s.body⟩
  return .abs s.tvs givens [⟨poly, mono⟩] [.fn mono g j.loc] j.loc

-- Expressions

def inferElems (elemTy : Ty) : List Part → CheckM (List Typed.Expr)
  | [] => return []
  | p :: ps => do
    let (e, t) ← p.infer
    unify elemTy t p.loc
    return e :: (← inferElems elemTy ps)

mutual

def infer (env : Env) : Surface.Expr → CheckM Inferred
  | .var n l => inferVar env n l
  | .con n l => inferCon env n l
  | .lit v l => note (.lit v l, v.ty)
  | .app f a l => do
    let (f', fTy) ← infer env f
    let (a', aTy) ← infer env a
    match (← zonk fTy).splitFn? with
    | some (p, t) => do
      unify p aTy a.loc
      note (.app f' a' l, t)
    | none => do
      let t ← freshUvar
      unify (.fn aTy t) fTy f.loc
      note (.app f' a' l, t)
  | .row e es _ => inferRow env ⟨e.loc, infer env e⟩ (operands env es)
  | .lambda ps e l => do
    let expected ← freshUvar
    let g ← checkGroup env expected ⟨ps, l, e.loc, fun env => infer env e⟩ []
    note (.lambda g l, g.ty)
  | .letIn bs e l => do
    let (bs', env') ← inferLocals env (jobs bs)
    let (e', t) ← infer env' e
    note (.letIn bs' e' l, t)
  | .ifThenElse c y n l => do
    let (c', cTy) ← infer env c
    unify .bool cTy c.loc
    let (y', t) ← infer env y
    let (n', nTy) ← infer env n
    unify t nTy n.loc
    note (.ifThenElse c' y' n' l, t)
  | .caseOf s as l => do
    let (s', sTy) ← infer env s
    let t ← freshUvar
    let ms ← (altRows as).mapM (checkRow env [sTy] t)
    note (.caseOf s' (.mk ms [sTy] t) l, t)
  | .list es l => do
    let t ← freshUvar
    let es' ← inferElems t (parts env es)
    note (.list es' t l, .list t)
  | .par e l => do
    let (e', t) ← infer env e
    note (.par e' l, t)

def parts (env : Env) : List Surface.Expr → List Part
  | [] => []
  | e :: es => ⟨e.loc, infer env e⟩ :: parts env es

def operands (env : Env) : List Surface.Operand → List (Surface.OpRef × Part)
  | [] => []
  | .mk op e :: es => (op, ⟨e.loc, infer env e⟩) :: operands env es

def altRows : List Surface.Alt → List Row
  | [] => []
  | .mk p e l :: as => ⟨[p], l, e.loc, fun env => infer env e⟩ :: altRows as

def matchRow : Surface.Match → Row
  | .mk ps e l => ⟨ps, l, e.loc, fun env => infer env e⟩

def matchRows : List Surface.Match → List Row
  | [] => []
  | m :: ms => matchRow m :: matchRows ms

def funJob : Surface.FunBind → FunJob
  | .mk n nl m ms l => ⟨n, nl, matchRow m, matchRows ms, l⟩

def job : Surface.Binding → Job
  | .fn b => .fn (funJob b)
  | .pat (.mk p e l) => .pat p (fun env => infer env e) l

def jobs : List Surface.Binding → List (Surface.Dependencies × Job)
  | [] => []
  | b :: bs => (b.dependencies, job b) :: jobs bs

end

end TypeLens.Check
