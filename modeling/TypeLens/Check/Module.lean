import TypeLens.Check.Declare
import TypeLens.Check.Infer
import TypeLens.Failure

/-!
Checking of a whole module against what its imports export.
-/

namespace TypeLens

structure Checked where
  globals : Globals
  exports : Exports
  binds : List Typed.Bind
  warnings : List Diagnostic

namespace Check

open Typed (Ident)

def addIdents (d : Declaring) (ids : Bound) : Declaring :=
  ids.foldl (fun d i =>
    let loc := (d.places.get? (.value, i.1)).getD .unknown
    let e : Entity := .ident ⟨i.2.name, loc, i.2.scheme, none⟩
    { d with globals := d.globals.addEntity e, exports := d.exports.addEntity e }) d

/-- Whether a binding is the declaration of its names and does not repeat one. -/
def Declaring.owns (d : Declaring) (j : Job) : Bool :=
  j.binders.all fun b => d.places.get? (.value, b.1) = some b.2

/-- A binding group of the top level. Those that repeat a declaration are left out. -/
def topGroup (d : Declaring) (g : List Job) : CheckM (List Typed.Bind × Declaring) := do
  if !g.all d.owns then return ([], d)
  let env : Env := { globals := d.globals }
  match g with
  | [.fn j] =>
    match d.signatures.get? j.name with
    | some s => return ([← checkSigned env ⟨topName env.module .value j.name, s⟩ j], d)
    | none =>
      let (b, polys) ← inferGroup env (fun occ => return topName env.module .value occ) g
      return ([b], addIdents d polys)
  | _ =>
    let (b, polys) ← inferGroup env (fun occ => return topName env.module .value occ) g
    return ([b], addIdents d polys)

def topGroups (d : Declaring) : List (List Job) → CheckM (List Typed.Bind × Declaring)
  | [] => return ([], d)
  | g :: gs => do
    let (bs, d') ← topGroup d g
    let (bs', d'') ← topGroups d' gs
    return (bs ++ bs', d'')

/-- New names for the variables that are taken; the others keep theirs. -/
def renameTaken (taken supply : List String) : List String → List String
  | [] => []
  | v :: vs =>
    if v ∉ taken then v :: renameTaken taken supply vs
    else
      match supply with
      | n :: ns => n :: renameTaken taken ns vs
      | [] => v :: renameTaken taken [] vs

def methodScheme (tyvar : String) (i : Instance) (s : Scheme) : Scheme :=
  let others := s.tvs.drop 1
  let renamed := renameTaken i.tyvars (freshTyvars i.tyvars others.length) others
  ⟨i.tyvars ++ renamed, i.context,
    s.body.substVars (assign (tyvar :: others) (i.headTy :: renamed.map .var))⟩

/-- The method bindings of an instance; `seen` are those that came before. -/
def methodBinds (env : Env) (c : TypeClass) (i : Instance) (seen : List String) :
    List FunJob → CheckM (List Typed.Bind × List String)
  | [] => return ([], seen)
  | j :: js => do
    match c.methods.find? (·.name.occ == j.name) with
    | none =>
      report (.notAMethod j.name c.name.occ) j.nameLoc
      methodBinds env c i seen js
    | some m =>
      if seen.contains j.name then
        report (.definedTwice j.name) j.nameLoc
        methodBinds env c i seen js
      else
        let n ← localName env j.name
        let b ← checkSigned env ⟨n, methodScheme c.tyvar i m.scheme⟩ j
        let (bs, seen') ← methodBinds env c i (j.name :: seen) js
        return (b :: bs, seen')

def instanceBinds (g : Globals) (d : Instance × Surface.InstanceDecl) :
    CheckM (List Typed.Bind) := do
  match g.entity? d.1.cls with
  | some (.typeClass c) =>
    let (bs, seen) ← methodBinds { globals := g } c d.1 [] (d.2.binds.map funJob)
    c.methods.forM fun m =>
      reportIf (!seen.contains m.name.occ) (.missingMethod m.name.occ) d.2.loc
    return bs
  | _ => return []

def binds (d : Declaring) (instances : List (Instance × Surface.InstanceDecl))
    (m : Surface.Module) : CheckM (List Typed.Bind × Declaring) := do
  let (top, d') ← topGroups d (Surface.groupsOf (jobs m.bindings) d.signatures.keys)
  let methods ← instances.mapM (instanceBinds d'.globals)
  return (top ++ methods.flatten, d')

/-- The bindings of a module with their types, its names, and the state at the end. -/
structure Elaboration where
  binds : List Typed.Bind
  declared : Declaring
  state : State

def elaborate (m : Surface.Module) (imports : List Exports) : Elaboration :=
  let globals := imports.foldl Globals.importAll (.empty m.name)
  let (instances, d) := (Declare.all m).run { globals, exports := { module := m.name } }
  let ((bs, d'), s) := (binds d instances m).run { reports := d.reports }
  ⟨bs, d', s⟩

def Elaboration.answers (e : Elaboration) : Typed.Answers :=
  .ofSolutions e.state.subst e.state.solutions

structure Outcome where
  checked : Checked
  reports : List Report

def run (m : Surface.Module) (imports : List Exports) : Outcome :=
  let e := elaborate m imports
  let reports := e.state.reports.reverse
  ⟨⟨e.declared.globals, e.declared.exports, e.answers.binds e.binds,
    reports.map (·.diagnostic)⟩, reports⟩

/-- Checks a module against the exports of its imports. -/
def module (m : Surface.Module) (imports : List Exports) : Except Failure Checked :=
  let r := run m imports
  if r.reports.any (·.isError) then .error (.source (r.reports.map (·.diagnostic)))
  else .ok r.checked

end Check

end TypeLens
