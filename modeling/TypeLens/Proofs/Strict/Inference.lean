import TypeLens.Proofs.Strict.Operations
import TypeLens.Proofs.Surface.Groups

/-!
Inference with operations that can break down: each function of the checker, as it asserts and looks
up, beside the proof that it does what the function does that cannot break down.
-/

namespace TypeLens.Check.Strict

open Typed (Ident DictVar Export Head)

abbrev CheckM := Attempt State

/-- After an action that returns what has a property, actions have to be the same only for that. -/
theorem lift_bind_of {α β : Type} {P : α → Prop} {act : Check.CheckM α} {f : α → CheckM β}
    {g : α → Check.CheckM β} (h : Returns act P) (hf : ∀ a, P a → f a = lift (g a)) :
    lift act >>= f = lift (act >>= g) := by
  funext s
  exact congrFun (hf _ (h s)) _

-- Constraints

/-- A type as the constraint that it has to be. -/
def constraint {σ : Type} : Ty → Attempt σ Pred
  | .pred c t => return ⟨c, t⟩
  | t => throw (.constraint t)

def solveOne (env : Env) (s : Scoping) (acc : Solved) (w : Wanted) :
    CheckM (Solved × List Wanted) := do
  let _ ← constraint ((← get).subst.apply w.pred.ty)
  lift (Check.solveOne env s acc w)

theorem solveOne_eq (env : Env) (s : Scoping) (acc : Solved) (w : Wanted) :
    solveOne env s acc w = lift (Check.solveOne env s acc w) := rfl

def solveRound (env : Env) (s : Scoping) : Solved → List Wanted → CheckM (Solved × List Wanted)
  | acc, [] => return (acc, [])
  | acc, w :: ws => do
    let r ← solveOne env s acc w
    let r' ← solveRound env s r.1 ws
    return (r'.1, r.2 ++ r'.2)

theorem solveRound_eq (env : Env) (s : Scoping) (acc : Solved) (ws : List Wanted) :
    solveRound env s acc ws = lift (Check.solveRound env s acc ws) := by
  induction ws generalizing acc with
  | nil => rfl
  | cons w ws ih =>
    simp only [solveRound, solveOne_eq, ih]
    rfl

def solveRounds (env : Env) (s : Scoping) : Nat → Solved → List Wanted → CheckM Solved
  | 0, acc, _ => return acc
  | n + 1, acc, ws => do
    let r ← solveRound env s acc ws
    solveRounds env s n r.1 r.2

theorem solveRounds_eq (env : Env) (s : Scoping) (n : Nat) (acc : Solved) (ws : List Wanted) :
    solveRounds env s n acc ws = lift (Check.solveRounds env s n acc ws) := by
  induction n generalizing acc ws with
  | zero => rfl
  | succ n ih =>
    simp only [solveRounds, solveRound_eq, ih]
    rfl

def solve (env : Env) (s : Scoping) (ws : List Wanted) : CheckM (List DictVar) := do
  let σ := (← get).subst
  let bound := roundBound (ws.map fun w => { w with pred := σ.applyPred w.pred })
  let r ← solveRounds env s bound {} ws
  modify fun st => { st with wanted := st.wanted ++ r.deferred }
  return r.params.values

theorem solve_eq (env : Env) (s : Scoping) (ws : List Wanted) :
    solve env s ws = lift (Check.solve env s ws) := by
  simp only [solve, solveRounds_eq]
  rfl

def collecting {α : Type} (act : CheckM α) : CheckM (α × List Wanted) := do
  let before := (← get).wanted
  modify ({ · with wanted := [] })
  let a ← act
  let raised := (← get).wanted
  modify ({ · with wanted := before })
  return (a, raised)

theorem collecting_lift {α : Type} (act : Check.CheckM α) :
    collecting (lift act) = lift (Check.collecting act) := rfl

-- Names

def occurrence (h : Head) (occ : String) (loc : Span) : CheckM Inferred := do
  let s := h.scheme
  if s.isMono then return (← lift (note (.head h loc, s.body)))
  let typeArgs ← lift (freshFor s.tvs)
  let at_ := assign s.tvs typeArgs
  let preds ← s.preds.mapM fun p => constraint (p.ty.substVars at_)
  lift do
    let goals ← wantedFor loc occ preds
    modify fun st => { st with wanted := st.wanted ++ goals }
    let dicts := goals.map fun g => .unsolved g.hole g.pred
    note (.inst h typeArgs dicts loc, s.body.substVars at_)

theorem occurrence_eq (h : Head) (occ : String) (loc : Span) :
    occurrence h occ loc = lift (Check.occurrence h occ loc) := by
  have hpreds (f : String → Option Ty) (ps : List Pred) :
      (ps.mapM fun p => constraint (p.ty.substVars f)) =
        (pure (ps.map (·.substVars f)) : CheckM (List Pred)) := by
    induction ps with
    | nil => rfl
    | cons p ps ih =>
      rw [List.mapM_cons, ih]
      rfl
  unfold occurrence Check.occurrence
  dsimp only
  split
  · rfl
  · simp only [hpreds, pure_bind]
    rfl

def inferVar (env : Env) (occ : String) (loc : Span) : CheckM Inferred :=
  match env.locals.lookup occ with
  | some i => occurrence (.var i) occ loc
  | none =>
    match Check.resolve env.globals .value .variable occ with
    | .error e => lift do
      report e loc
      unknownName env occ loc
    | .ok n =>
      match env.globals.entity? n with
      | some (.dataCon c) => occurrence (.con n c.scheme) occ loc
      | some (.ident i) => occurrence (.var ⟨n, i.scheme⟩) occ loc
      | _ => lift (unknownName env occ loc)

theorem inferVar_eq (env : Env) (occ : String) (loc : Span) :
    inferVar env occ loc = lift (Check.inferVar env occ loc) := by
  simp only [inferVar, Check.inferVar, occurrence_eq]
  cases env.locals.lookup occ with
  | some i => rfl
  | none =>
    cases Check.resolve env.globals .value .variable occ with
    | error e => rfl
    | ok n =>
      dsimp only
      cases env.globals.entity? n with
      | none => rfl
      | some e => cases e <;> rfl

def inferCon (env : Env) (occ : String) (loc : Span) : CheckM Inferred :=
  match Check.resolve env.globals .value .dataConstructor occ with
  | .error e => lift do
    report e loc
    unknownName env occ loc
  | .ok n =>
    match env.globals.entity? n with
    | some (.dataCon c) => occurrence (.con n c.scheme) occ loc
    | _ => lift do
      report (.notADataCon occ) loc
      unknownName env occ loc

theorem inferCon_eq (env : Env) (occ : String) (loc : Span) :
    inferCon env occ loc = lift (Check.inferCon env occ loc) := by
  simp only [inferCon, Check.inferCon, occurrence_eq]
  cases Check.resolve env.globals .value .dataConstructor occ with
  | error e => rfl
  | ok n =>
    dsimp only
    cases env.globals.entity? n with
    | none => rfl
    | some e => cases e <;> rfl

-- Operators

structure Part where
  loc : Span
  infer : CheckM Inferred

def liftPart (p : Check.Part) : Part := ⟨p.loc, lift p.infer⟩

def inferOp (env : Env) (op : Surface.OpRef) : CheckM Inferred :=
  if isConOperator op.name then inferCon env op.name op.loc else inferVar env op.name op.loc

theorem inferOp_eq (env : Env) (op : Surface.OpRef) :
    inferOp env op = lift (Check.inferOp env op) := by
  unfold inferOp Check.inferOp
  split
  · exact inferCon_eq ..
  · exact inferVar_eq ..

abbrev PartTree := OpTree Surface.OpRef Part

def PartTree.loc : PartTree → Span
  | .leaf p => p.loc
  | .node l _ r => (PartTree.loc l).cover (PartTree.loc r)

theorem loc_map_liftPart (t : Check.PartTree) :
    PartTree.loc (t.map liftPart) = Check.PartTree.loc t := by
  induction t with
  | leaf p => rfl
  | node l op r ihl ihr => simp only [OpTree.map, PartTree.loc, Check.PartTree.loc, ihl, ihr]

def inferTree (env : Env) : PartTree → CheckM Inferred
  | .leaf p => p.infer
  | .node l op r => do
    let (l', lTy) ← inferTree env l
    let (op', opTy) ← inferOp env op
    let (r', rTy) ← inferTree env r
    lift do
      let res ← freshUvar
      let e : Typed.Expr := .opApp l' op' r' ((PartTree.loc l).cover (PartTree.loc r))
      match (← zonk opTy).splitFns 2 with
      | ([p, q], t) => do
        unify p lTy (PartTree.loc l)
        unify q rTy (PartTree.loc r)
        note (e, t)
      | _ => do
        unify (Ty.fns [lTy, rTy] res) opTy op.loc
        note (e, res)

theorem inferTree_map (env : Env) (t : Check.PartTree) :
    inferTree env (t.map liftPart) = lift (Check.inferTree env t) := by
  induction t with
  | leaf p => rfl
  | node l op r ihl ihr =>
    simp only [OpTree.map, inferTree, ihl, ihr, inferOp_eq, loc_map_liftPart]
    rfl

/-- The operands of a row and the operators between them. -/
def inferRow (env : Env) (operands : List Part) (ops : List Surface.OpRef) : CheckM Inferred := do
  let r ← (resolve (opFixity env) ops operands : Except Fault _)
  lift do
    r.conflicts.forM fun c =>
      report (.fixityConflict c.1.name (opFixity env c.1) c.2.name (opFixity env c.2)) c.2.loc
  inferTree env r.tree

theorem inferRow_map (env : Env) (first : Check.Part) (rest : List (Surface.OpRef × Check.Part)) :
    inferRow env ((first :: rest.map Prod.snd).map liftPart) (rest.map Prod.fst) =
      lift (Check.inferRow env first rest) := by
  have hops : rest.map Prod.fst = (rest.map (Prod.map id liftPart)).map Prod.fst := by
    rw [List.map_map]
    rfl
  have hoperands : (rest.map Prod.snd).map liftPart =
      (rest.map (Prod.map id liftPart)).map Prod.snd := by
    rw [List.map_map, List.map_map]
    rfl
  rw [inferRow, List.map_cons, hoperands, hops, resolve_row, OpTree.resolve_map]
  show (lift _ >>= fun _ => inferTree env _) = _
  rw [inferTree_map]
  rfl

-- Equations

structure Row where
  pats : List Surface.Pat
  loc : Span
  rhsLoc : Span
  rhs : Env → CheckM Inferred

def liftRow (r : Check.Row) : Row := ⟨r.pats, r.loc, r.rhsLoc, fun env => lift (r.rhs env)⟩

def checkRow (env : Env) (argTys : List Ty) (resTy : Ty) (r : Row) : CheckM Typed.Match := do
  let (ps, bound) ← lift ((checkPats env [] r.pats argTys).run [])
  let (e, t) ← r.rhs (env.extend bound)
  lift (unify resTy t r.rhsLoc)
  return .mk ps e r.loc

theorem mapM_checkRow (env : Env) (argTys : List Ty) (resTy : Ty) (rs : List Check.Row) :
    (rs.map liftRow).mapM (checkRow env argTys resTy) =
      lift (rs.mapM (Check.checkRow env argTys resTy)) := by
  rw [List.mapM_map]
  exact embeds_lift.mapM fun _ _ => rfl

/-- The first equation says how many arguments there are. -/
def checkGroup (env : Env) (expected : Ty) (rows : List Row) : CheckM Typed.MatchGroup := do
  let first ← need .element rows.head?
  let argTys ← lift (freshFor first.pats)
  let resTy ← lift freshUvar
  lift (unify expected (Ty.fns argTys resTy) first.loc)
  let rows ← rows.mapM (checkRow env argTys resTy)
  return .mk rows argTys resTy

theorem checkGroup_map (env : Env) (expected : Ty) (first : Check.Row) (rest : List Check.Row) :
    checkGroup env expected ((first :: rest).map liftRow) =
      lift (Check.checkGroup env expected first rest) := by
  unfold checkGroup
  simp only [mapM_checkRow]
  rfl

-- Bindings

structure FunJob where
  name : String
  nameLoc : Span
  rows : List Row
  loc : Span

inductive Job
  | fn (j : FunJob)
  | pat (pat : Surface.Pat) (rhs : Env → CheckM Inferred) (loc : Span)

def liftFunJob (j : Check.FunJob) : FunJob :=
  ⟨j.name, j.nameLoc, (j.first :: j.rest).map liftRow, j.loc⟩

def liftJob : Check.Job → Job
  | .fn j => .fn (liftFunJob j)
  | .pat p rhs l => .pat p (fun env => lift (rhs env)) l

namespace Job

def binders : Job → List (String × Span)
  | .fn j => [(j.name, j.nameLoc)]
  | .pat p _ _ => p.binders

def loc : Job → Span
  | .fn j => j.loc
  | .pat _ _ l => l

/-- Checks a binding whose group has its identifiers. -/
def check (env : Env) (group : Bound) : Job → CheckM Typed.Bind
  | .fn j => do
    let i ← need (.identifier j.name) (group.get? j.name)
    let g ← checkGroup env i.scheme.body j.rows
    return .fn i g j.loc
  | .pat p rhs l => do
    let (e, t) ← rhs env
    let (p', bound) ← lift ((checkPat env group p t).run [])
    return .pat p' e bound.values l

end Job

theorem binders_liftJob (j : Check.Job) : (liftJob j).binders = j.binders := by
  cases j <;> rfl

theorem loc_liftJob (j : Check.Job) : (liftJob j).loc = j.loc := by
  cases j <;> rfl

theorem flatMap_binders_liftJob (js : List Check.Job) :
    (js.map liftJob).flatMap Job.binders = js.flatMap Check.Job.binders := by
  rw [List.flatMap_map]
  exact List.flatMap_congr fun j _ => binders_liftJob j

theorem check_liftJob (env : Env) {group : Bound} {j : Check.Job}
    (h : ∀ y ∈ j.binders, ∃ i, group.get? y.1 = some i) :
    (liftJob j).check env group = lift (j.check env group) := by
  cases j with
  | fn j =>
    obtain ⟨i, hi⟩ := h (j.name, j.nameLoc) (List.mem_singleton_self _)
    simp only [liftJob, liftFunJob, Job.check, Check.Job.check, hi, need_some, pure_bind,
      checkGroup_map]
    rfl
  | pat p rhs l => rfl

def groupIdents (nameOf : String → CheckM Name) : Bound → List (String × Span) → CheckM Bound
  | acc, [] => return acc
  | acc, (occ, _) :: bs =>
    if acc.contains occ then groupIdents nameOf acc bs
    else do
      let n ← nameOf occ
      let t ← lift freshUvar
      groupIdents nameOf (acc.put occ ⟨n, .mono t⟩) bs

theorem groupIdents_eq {nameOf : String → CheckM Name} {nameOf' : String → Check.CheckM Name}
    {ys : List (String × Span)} (h : ∀ y ∈ ys, nameOf y.1 = lift (nameOf' y.1)) (acc : Bound) :
    groupIdents nameOf acc ys = lift (Check.groupIdents nameOf' acc ys) := by
  induction ys generalizing acc with
  | nil => rfl
  | cons y ys ih =>
    obtain ⟨hy, hys⟩ := List.forall_mem_cons.1 h
    unfold groupIdents Check.groupIdents
    split
    · exact ih hys acc
    · simp only [hy, ih hys]
      rfl

/-- From the first binding of a group to the last. -/
def groupLoc (jobs : List Job) : CheckM Span := do
  let a ← need .element jobs.head?
  let b ← need .element jobs.getLast?
  return a.loc.cover b.loc

theorem groupLoc_map {js : List Check.Job} (h : js ≠ []) :
    groupLoc (js.map liftJob) = pure (Check.groupLoc js) := by
  have hhead : js.head? = some (js.head h) := List.head?_eq_some_head h
  have hlast : js.getLast? = some (js.getLast h) := List.getLast?_eq_some_getLast h
  simp only [groupLoc, Check.groupLoc, List.head?_map, List.getLast?_map, hhead, hlast,
    Option.map_some, need_some, pure_bind, loc_liftJob]

def openGroup (env : Env) (nameOf : String → CheckM Name) (jobs : List Job) :
    CheckM OpenGroup := do
  let outer := uvarsOf (← get).subst env.locals
  let monos ← groupIdents nameOf [] (jobs.flatMap Job.binders)
  let (binds, raised) ← collecting (jobs.mapM (Job.check (env.extend monos) monos))
  return ⟨outer, monos, binds, raised⟩

theorem openGroup_map (env : Env) {nameOf : String → CheckM Name}
    {nameOf' : String → Check.CheckM Name} {js : List Check.Job}
    (h : ∀ y ∈ js.flatMap Check.Job.binders, nameOf y.1 = lift (nameOf' y.1)) :
    openGroup env nameOf (js.map liftJob) = lift (Check.openGroup env nameOf' js) := by
  have hchecks {monos : Bound} (hmonos : Identifies (js.flatMap Check.Job.binders) monos) :
      (js.map liftJob).mapM (Job.check (env.extend monos) monos) =
        lift (js.mapM (Check.Job.check (env.extend monos) monos)) := by
    rw [List.mapM_map]
    refine embeds_lift.mapM fun j hj => check_liftJob _ fun y hy => ?_
    exact hmonos.bound y (List.mem_flatMap.2 ⟨j, hj, hy⟩)
  have hrest (outer : List UVar) :=
    lift_bind_of (returns_identifies nameOf' (js.flatMap Check.Job.binders))
      (f := fun monos => do
        let (binds, raised) ←
          collecting ((js.map liftJob).mapM (Job.check (env.extend monos) monos))
        return (⟨outer, monos, binds, raised⟩ : OpenGroup))
      fun monos hmonos => by
        rw [hchecks hmonos]
        rfl
  unfold openGroup
  simp only [flatMap_binders_liftJob, groupIdents_eq h, hrest]
  rfl

def closeGroup (env : Env) (g : OpenGroup) (loc : Span) : CheckM (Typed.Bind × Bound) := do
  let uvars := g.uvars (← get).subst
  let dicts ← solve env ⟨uvars, g.outer⟩ g.raised
  lift do
    let tvs := freshTyvars env.rigid uvars.length
    skolemise uvars tvs
    let σ := (← get).subst
    let polys := g.monos.map fun m => (m.1, generalise σ tvs dicts m.2)
    let exports := (polys.zip g.monos).map fun p => Export.mk p.1.2 p.2.2
    return (.abs tvs dicts exports g.binds loc, polys)

theorem closeGroup_eq (env : Env) (g : OpenGroup) (loc : Span) :
    closeGroup env g loc = lift (Check.closeGroup env g loc) := by
  simp only [closeGroup, solve_eq]
  rfl

def inferGroup (env : Env) (nameOf : String → CheckM Name) (jobs : List Job) :
    CheckM (Typed.Bind × Bound) := do
  closeGroup env (← openGroup env nameOf jobs) (← groupLoc jobs)

theorem inferGroup_map (env : Env) {nameOf : String → CheckM Name}
    {nameOf' : String → Check.CheckM Name} {js : List Check.Job} (hne : js ≠ [])
    (h : ∀ y ∈ js.flatMap Check.Job.binders, nameOf y.1 = lift (nameOf' y.1)) :
    inferGroup env nameOf (js.map liftJob) = lift (Check.inferGroup env nameOf' js) := by
  simp only [inferGroup, openGroup_map env h, groupLoc_map hne, pure_bind, closeGroup_eq]
  rfl

def inferGroups (env : Env) : List (List Job) → CheckM (List Typed.Bind × Env)
  | [] => return ([], env)
  | g :: gs => do
    let (b, polys) ← inferGroup env (fun occ => lift (localName env occ)) g
    let (bs, env') ← inferGroups (env.extend polys) gs
    return (b :: bs, env')

theorem inferGroups_map (env : Env) {gs : List (List Check.Job)} (h : ∀ g ∈ gs, g ≠ []) :
    inferGroups env (gs.map (List.map liftJob)) = lift (Check.inferGroups env gs) := by
  induction gs generalizing env with
  | nil => rfl
  | cons g gs ih =>
    obtain ⟨hg, hgs⟩ := List.forall_mem_cons.1 h
    have hgroup : inferGroup env (fun occ => lift (localName env occ)) (g.map liftJob) =
        lift (Check.inferGroup env (localName env) g) := inferGroup_map env hg fun _ _ => rfl
    simp only [List.map_cons, inferGroups, hgroup, ih _ hgs]
    rfl

def inferLocals (env : Env) (jobs : List (Surface.Dependencies × Job)) :
    CheckM (List Typed.Bind × Env) := do
  lift (reportRepeated [] (jobs.flatMap (·.2.binders)))
  inferGroups env (Surface.groupsOf jobs [])

theorem inferLocals_map (env : Env) (js : List (Surface.Dependencies × Check.Job)) :
    inferLocals env (js.map (Prod.map id liftJob)) = lift (Check.inferLocals env js) := by
  have hbinders : (js.map (Prod.map id liftJob)).flatMap (·.2.binders) =
      js.flatMap (·.2.binders) := by
    rw [List.flatMap_map]
    exact List.flatMap_congr fun x _ => binders_liftJob x.2
  unfold inferLocals
  rw [hbinders, Surface.groupsOf_map,
    inferGroups_map env fun g hg => Surface.ne_nil_of_mem_groupsOf hg]
  rfl

def checkSigned (env : Env) (poly : Ident) (j : FunJob) : CheckM Typed.Bind := do
  let s := poly.scheme
  let givens ← lift (s.preds.mapM fun p => return (⟨← dictName env p.cls, p⟩ : DictVar))
  let inner := { env with givens := env.givens ++ givens, rigid := env.rigid ++ s.tvs }
  let (g, raised) ← collecting (checkGroup inner s.body j.rows)
  let outer := uvarsOf (← get).subst env.locals
  let _ ← solve inner ⟨[], outer⟩ raised
  let mono : Ident := ⟨poly.name, .mono s.body⟩
  return .abs s.tvs givens [⟨poly, mono⟩] [.fn mono g j.loc] j.loc

theorem checkSigned_lift (env : Env) (poly : Ident) (j : Check.FunJob) :
    checkSigned env poly (liftFunJob j) = lift (Check.checkSigned env poly j) := by
  simp only [checkSigned, liftFunJob, checkGroup_map, collecting_lift, solve_eq]
  rfl

-- Expressions

def inferElems (elemTy : Ty) : List Part → CheckM (List Typed.Expr)
  | [] => return []
  | p :: ps => do
    let (e, t) ← p.infer
    lift (unify elemTy t p.loc)
    return e :: (← inferElems elemTy ps)

theorem inferElems_map (elemTy : Ty) (ps : List Check.Part) :
    inferElems elemTy (ps.map liftPart) = lift (Check.inferElems elemTy ps) := by
  induction ps with
  | nil => rfl
  | cons p ps ih =>
    simp only [List.map_cons, inferElems, ih]
    rfl

mutual

def infer (env : Env) : Surface.Expr → CheckM Inferred
  | .var n l => inferVar env n l
  | .con n l => inferCon env n l
  | .lit v l => lift (note (.lit v l, v.ty))
  | .app f a l => do
    let (f', fTy) ← infer env f
    let (a', aTy) ← infer env a
    lift do
      match (← zonk fTy).splitFn? with
      | some (p, t) => do
        unify p aTy a.loc
        note (.app f' a' l, t)
      | none => do
        let t ← freshUvar
        unify (.fn aTy t) fTy f.loc
        note (.app f' a' l, t)
  | .row e es _ => inferRow env (⟨e.loc, infer env e⟩ :: operands env es) (operators es)
  | .lambda ps e l => do
    let expected ← lift freshUvar
    let g ← checkGroup env expected [⟨ps, l, e.loc, fun env => infer env e⟩]
    lift (note (.lambda g l, g.ty))
  | .letIn bs e l => do
    let (bs', env') ← inferLocals env (jobs bs)
    let (e', t) ← infer env' e
    lift (note (.letIn bs' e' l, t))
  | .ifThenElse c y n l => do
    let (c', cTy) ← infer env c
    lift (unify .bool cTy c.loc)
    let (y', t) ← infer env y
    let (n', nTy) ← infer env n
    lift (unify t nTy n.loc)
    lift (note (.ifThenElse c' y' n' l, t))
  | .caseOf s as l => do
    let (s', sTy) ← infer env s
    let t ← lift freshUvar
    let ms ← (altRows as).mapM (checkRow env [sTy] t)
    lift (note (.caseOf s' (.mk ms [sTy] t) l, t))
  | .list es l => do
    let t ← lift freshUvar
    let es' ← inferElems t (parts env es)
    lift (note (.list es' t l, .list t))
  | .par e l => do
    let (e', t) ← infer env e
    lift (note (.par e' l, t))

def parts (env : Env) : List Surface.Expr → List Part
  | [] => []
  | e :: es => ⟨e.loc, infer env e⟩ :: parts env es

def operands (env : Env) : List Surface.Operand → List Part
  | [] => []
  | .mk _ e :: es => ⟨e.loc, infer env e⟩ :: operands env es

def operators : List Surface.Operand → List Surface.OpRef
  | [] => []
  | .mk op _ :: es => op :: operators es

def altRows : List Surface.Alt → List Row
  | [] => []
  | .mk p e l :: as => ⟨[p], l, e.loc, fun env => infer env e⟩ :: altRows as

def matchRow : Surface.Match → Row
  | .mk ps e l => ⟨ps, l, e.loc, fun env => infer env e⟩

def matchRows : List Surface.Match → List Row
  | [] => []
  | m :: ms => matchRow m :: matchRows ms

def funJob : Surface.FunBind → FunJob
  | .mk n nl m ms l => ⟨n, nl, matchRow m :: matchRows ms, l⟩

def job : Surface.Binding → Job
  | .fn b => .fn (funJob b)
  | .pat (.mk p e l) => .pat p (fun env => infer env e) l

def jobs : List Surface.Binding → List (Surface.Dependencies × Job)
  | [] => []
  | b :: bs => (b.dependencies, job b) :: jobs bs

end

theorem operators_eq (env : Env) (es : List Surface.Operand) :
    operators es = (Check.operands env es).map Prod.fst := by
  induction es with
  | nil => rfl
  | cons e es ih =>
    cases e
    exact congrArg (_ :: ·) ih

mutual

theorem infer_eq (env : Env) : ∀ e, infer env e = lift (Check.infer env e)
  | .var n l => inferVar_eq env n l
  | .con n l => inferCon_eq env n l
  | .lit _ _ => rfl
  | .app f a l => by
    simp only [infer, infer_eq env f, infer_eq env a]
    rfl
  | .row e es _ => by
    rw [infer, infer_eq env e, operands_eq env es, operators_eq env es]
    exact inferRow_map env ⟨e.loc, Check.infer env e⟩ _
  | .lambda ps e l => by
    have hrow : (⟨ps, l, e.loc, fun env => infer env e⟩ : Row) =
        liftRow ⟨ps, l, e.loc, fun env => Check.infer env e⟩ :=
      congrArg (Row.mk ps l e.loc) (funext fun env => infer_eq env e)
    have hgroup (expected : Ty) := checkGroup_map env expected
      ⟨ps, l, e.loc, fun env => Check.infer env e⟩ []
    simp only [List.map_cons, List.map_nil] at hgroup
    simp only [infer, hrow, hgroup]
    rfl
  | .letIn bs e l => by
    have hbody (env : Env) := infer_eq env e
    simp only [infer, jobs_eq bs, inferLocals_map, hbody]
    rfl
  | .ifThenElse c y n l => by
    simp only [infer, infer_eq env c, infer_eq env y, infer_eq env n]
    rfl
  | .caseOf s as l => by
    simp only [infer, infer_eq env s, altRows_eq as, mapM_checkRow]
    rfl
  | .list es l => by
    simp only [infer, parts_eq env es, inferElems_map]
    rfl
  | .par e l => by
    simp only [infer, infer_eq env e]
    rfl

theorem parts_eq (env : Env) : ∀ es, parts env es = (Check.parts env es).map liftPart
  | [] => rfl
  | e :: es => by
    rw [parts, infer_eq env e, parts_eq env es]
    rfl

theorem operands_eq (env : Env) :
    ∀ es, operands env es = ((Check.operands env es).map Prod.snd).map liftPart
  | [] => rfl
  | .mk op e :: es => by
    rw [operands, infer_eq env e, operands_eq env es]
    rfl

theorem altRows_eq : ∀ as, altRows as = (Check.altRows as).map liftRow
  | [] => rfl
  | .mk p e l :: as => by
    have hrhs : (fun env => infer env e) = fun env => lift (Check.infer env e) :=
      funext fun env => infer_eq env e
    rw [altRows, hrhs, altRows_eq as]
    rfl

theorem matchRow_eq : ∀ m, matchRow m = liftRow (Check.matchRow m)
  | .mk ps e l => congrArg (Row.mk ps l e.loc) (funext fun env => infer_eq env e)

theorem matchRows_eq : ∀ ms, matchRows ms = (Check.matchRows ms).map liftRow
  | [] => rfl
  | m :: ms => by
    rw [matchRows, matchRow_eq m, matchRows_eq ms]
    rfl

theorem funJob_eq : ∀ b, funJob b = liftFunJob (Check.funJob b)
  | .mk n nl m ms l => by
    rw [funJob, matchRow_eq m, matchRows_eq ms]
    rfl

theorem job_eq : ∀ b, job b = liftJob (Check.job b)
  | .fn b => congrArg Job.fn (funJob_eq b)
  | .pat (.mk p e l) => congrArg (Job.pat p · l) (funext fun env => infer_eq env e)

theorem jobs_eq : ∀ bs, jobs bs = (Check.jobs bs).map (Prod.map id liftJob)
  | [] => rfl
  | b :: bs => by
    rw [jobs, job_eq b, jobs_eq bs]
    rfl

end

end TypeLens.Check.Strict
