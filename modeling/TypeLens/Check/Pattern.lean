import TypeLens.Check.State
import TypeLens.Surface.Tree

/-!
Patterns against the type of the values that they match.
-/

namespace TypeLens.Check

open Typed (Ident)

/-- The identifiers that patterns have bound so far. -/
abbrev Bound := Table String Ident

abbrev PatM := StateT Bound CheckM

def newLocal (env : Env) (occ : String) (t : Ty) : CheckM Ident := do
  return ⟨← localName env occ, .mono t⟩

def resolveCon (g : Globals) (occ : String) : Except Problem DataCon := do
  let n ← resolve g .value .dataConstructor occ
  match g.entity? n with
  | some (.dataCon c) => return c
  | _ => throw (.patternNotADataCon occ)

/-- The identifier that a variable pattern binds; those in `group` are there before it. -/
def patIdent (env : Env) (group : Bound) (occ : String) (t : Ty) (loc : Span) : CheckM Ident := do
  match group.get? occ with
  | some i => do
    unify i.scheme.body t loc
    return i
  | none => newLocal env occ t

mutual

/-- Checks a pattern; the variables in `group` are there before it. -/
def checkPat (env : Env) (group : Bound) : Surface.Pat → Ty → PatM Typed.Pat
  | .var n l, t => do
    reportIf ((← get).contains n) (.definedTwice n) l
    let i ← patIdent env group n t l
    modify fun b => b.put n i
    return .var i l
  | .wild l, t => return .wild t l
  | .lit v l, t => do
    unify t v.ty l
    return .lit v l
  | .par p l, t => return .par (← checkPat env group p t) l
  | .con n ps l, t => do
    match resolveCon env.globals n with
    | .error e => do
      report e l
      freshPats env group ps
      return .wild t l
    | .ok c =>
      if c.argTypes.length = ps.length then do
        let typeArgs ← freshFor c.scheme.tvs
        let at_ := assign c.scheme.tvs typeArgs
        let result := (c.scheme.body.splitFns ps.length).2.substVars at_
        unify t result l
        let args ← checkPats env group ps (c.argTypes.map (·.substVars at_))
        return .con c.name typeArgs args result l
      else do
        report (.patternArity n c.argTypes.length ps.length) l
        return .wild t l

def checkPats (env : Env) (group : Bound) : List Surface.Pat → List Ty → PatM (List Typed.Pat)
  | p :: ps, t :: ts => do
    let p' ← checkPat env group p t
    return p' :: (← checkPats env group ps ts)
  | _, _ => return []

def freshPats (env : Env) (group : Bound) : List Surface.Pat → PatM Unit
  | [] => return
  | p :: ps => do
    let _ ← checkPat env group p (← freshUvar)
    freshPats env group ps

end

end TypeLens.Check
