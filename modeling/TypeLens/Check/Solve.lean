import TypeLens.Check.State

/-!
Class constraints: each is reduced through instances until only constraints on variables are left.
-/

namespace TypeLens.Check

open Typed (DictVar Evidence Hole)

/-- The variables of a binding group at which its constraints may stay open. -/
structure Scoping where
  /-- The unification variables that the group generalises. -/
  generalised : List UVar
  /-- Those that are free in the environment of the group. -/
  outer : List UVar

inductive Fate
  | reduced (m : InstanceEnv.Match)
  | given (d : DictVar)
  /-- The group takes a dictionary for it. -/
  | parameter (uvar : UVar)
  /-- The enclosing group has to solve it. -/
  | deferred
  | noInstance
  | cannotDeduce
  | ambiguous

/-- The innermost of the dictionary parameters that are for a constraint by now. -/
def findGiven (σ : Subst) (givens : List DictVar) (p : Pred) : Option DictVar :=
  givens.reverse.find? fun d => σ.applyPred d.pred == p

/-- The fate of a constraint whose type is as it is known by now. -/
def Scoping.fate (s : Scoping) (σ : Subst) (env : InstanceEnv) (givens : List DictVar)
    (p : Pred) : Fate :=
  match p.arg with
  | .var _ =>
    match findGiven σ givens p with
    | some d => .given d
    | none => .cannotDeduce
  | .uvar m =>
    if m ∈ s.generalised then .parameter m else if m ∈ s.outer then .deferred else .ambiguous
  | t =>
    match t.unconApp?, env.match? p with
    | some _, some m => .reduced m
    | some _, none => .noInstance
    | none, _ => .ambiguous

/-- The dictionary parameters of a group, and the constraints that it leaves to others. -/
structure Solved where
  params : Table (Name × UVar) DictVar := []
  deferred : List Wanted := []

def solution (hole : Nat) (e : Evidence) : CheckM Unit :=
  modify fun s => { s with solutions := (hole, e) :: s.solutions }

def solveOne (env : Env) (s : Scoping) (acc : Solved) (w : Wanted) :
    CheckM (Solved × List Wanted) := do
  let p ← zonkPred w.pred
  match s.fate (← get).subst env.globals.instanceEnv env.givens p with
  | .reduced m =>
    let goals ← wantedFor w.loc w.use m.context
    solution w.hole (.byInstance m.inst m.typeArgs (goals.map fun g => .unsolved g.hole g.pred))
    return (acc, goals)
  | .given d =>
    solution w.hole (.byParam d)
    return (acc, [])
  | .parameter m =>
    match acc.params.get? (p.cls, m) with
    | some d =>
      solution w.hole (.byParam d)
      return (acc, [])
    | none =>
      let d : DictVar := ⟨← dictName env p.cls, p⟩
      solution w.hole (.byParam d)
      return ({ acc with params := acc.params.put (p.cls, m) d }, [])
  | .deferred => return ({ acc with deferred := acc.deferred ++ [w] }, [])
  | .noInstance =>
    report (.noInstance p w.use) w.loc
    return (acc, [])
  | .cannotDeduce =>
    report (.cannotDeduce p w.use) w.loc
    return (acc, [])
  | .ambiguous =>
    report (.ambiguousType p w.use) w.loc
    return (acc, [])

def solveRound (env : Env) (s : Scoping) : Solved → List Wanted → CheckM (Solved × List Wanted)
  | acc, [] => return (acc, [])
  | acc, w :: ws => do
    let r ← solveOne env s acc w
    let r' ← solveRound env s r.1 ws
    return (r'.1, r.2 ++ r'.2)

/-- At most `n` rounds, each with the constraints that the round before it led to. -/
def solveRounds (env : Env) (s : Scoping) : Nat → Solved → List Wanted → CheckM Solved
  | 0, acc, _ => return acc
  | n + 1, acc, ws => do
    let r ← solveRound env s acc ws
    solveRounds env s n r.1 r.2

/-- Constraints get smaller from round to round, down to variables that no argument stands for. -/
def roundBound (ws : List Wanted) : Nat := (ws.map (·.pred.arg.size)).foldl max 0 + 1

/-- Solves constraints; those that are deferred wait with the ones that were raised before, and the
group's dictionary parameters are returned. -/
def solve (env : Env) (s : Scoping) (ws : List Wanted) : CheckM (List DictVar) := do
  let σ := (← get).subst
  let bound := roundBound (ws.map fun w => { w with pred := σ.applyPred w.pred })
  let r ← solveRounds env s bound {} ws
  modify fun st => { st with wanted := st.wanted ++ r.deferred }
  return r.params.values

/-- The constraints that an action raises, apart from those that waited before. -/
def collecting {α : Type} (act : CheckM α) : CheckM (α × List Wanted) := do
  let before := (← get).wanted
  modify ({ · with wanted := [] })
  let a ← act
  let raised := (← get).wanted
  modify ({ · with wanted := before })
  return (a, raised)

end TypeLens.Check
