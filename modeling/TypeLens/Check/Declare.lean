import TypeLens.Check.State
import TypeLens.Surface.Tree

/-!
The declarations of a module: types and classes first, then constructors, methods, primitives and
binders, then signatures, at last instances and fixities.
-/

namespace TypeLens.Check

structure Declaring where
  globals : Globals
  exports : Exports
  /-- Where the module's own names are declared. -/
  places : Table (Namespace × String) Span := []
  /-- The signatures of functions. -/
  signatures : Table String Scheme := []
  /-- The latest report stands first. -/
  reports : List Report := []

abbrev DeclareM := StateM Declaring

/-- The name of a module's own top-level entity. -/
def topName (module : String) (space : Namespace) (occ : String) : Name :=
  ⟨occ, module, space, 0⟩

namespace Declare

def report (p : Problem) (loc : Span) : DeclareM Unit :=
  modify fun s => { s with reports := ⟨p, loc⟩ :: s.reports }

/-- Declares a name of the module, unless it is declared already. -/
def define (space : Namespace) (occ : String) (loc : Span) : DeclareM (Option Name) := do
  let s ← get
  match s.places.get? (space, occ) with
  | some previous =>
    report (.declaredTwice occ previous) loc
    return none
  | none =>
    let n := topName s.globals.module space occ
    set { s with
      places := s.places.put (space, occ) loc
      globals := { s.globals with scope := s.globals.scope.add ⟨n, loc⟩ } }
    return some n

def addEntity (e : Entity) : DeclareM Unit :=
  modify fun s =>
    { s with globals := s.globals.addEntity e, exports := s.exports.addEntity e }

/-- The list type and its constructors, which have no declaration. -/
def listEntities : List Entity :=
  let a : Ty := .var "a"
  let nil : DataCon :=
    ⟨Builtin.nilCon, .unknown, Builtin.listTyCon, ⟨["a"], [], .list a⟩, []⟩
  let cons : DataCon :=
    ⟨Builtin.consCon, .unknown, Builtin.listTyCon, ⟨["a"], [], Ty.fns [a, .list a] (.list a)⟩,
      [a, .list a]⟩
  [.tyCon ⟨Builtin.listTyCon, .unknown, ["a"], [nil, cons]⟩, .dataCon nil, .dataCon cons]

def wireIn (e : Entity) : DeclareM Unit := do
  modify fun s => { s with places := s.places.put (e.name.space, e.name.occ) e.loc }
  addEntity e

-- Types

/-- What is wrong with a type constructor at `given` arguments. -/
def arityProblem? (occ : String) (given : Nat) : Option Entity → Option Problem
  | some (.typeClass _) => some (.classAsType occ)
  | some (.tyCon t) =>
    if given < t.tyvars.length then some (.tooFewArguments occ (t.tyvars.length - given))
    else if t.tyvars.length < given then some (.tooManyArguments occ)
    else none
  | _ => none

mutual

/-- The type that is written; its variables have to be in `tyvars`, if that is given. -/
def typeOf (tyvars : Option (List String)) : Surface.TypeExpr → DeclareM Ty
  | .var v l => do
    if tyvars.any (v ∉ ·) then report (.notInScope .typeVariable v) l
    return .var v
  | .fn t u _ => do
    let t' ← typeOf tyvars t
    return .fn t' (← typeOf tyvars u)
  | .con c ts l => do
    let args ← typesOf tyvars ts
    if c = "[]" then return .conApp Builtin.listTyCon args
    let g := (← get).globals
    match resolve g .type .typeConstructor c with
    | .error e =>
      report e l
      return .conApp (topName g.module .type c) args
    | .ok n =>
      match arityProblem? c args.length (g.entity? n) with
      | some p => report p l
      | none => return .conApp n args
      return .conApp n args

def typesOf (tyvars : Option (List String)) : List Surface.TypeExpr → DeclareM (List Ty)
  | [] => return []
  | t :: ts => do
    let t' ← typeOf tyvars t
    return t' :: (← typesOf tyvars ts)

end

/-- The class that a name means. -/
def classOf (occ : String) (loc : Span) : DeclareM (Option Name) := do
  let g := (← get).globals
  match resolve g .type .typeClass occ with
  | .error e =>
    report e loc
    return none
  | .ok n =>
    match g.entity? n with
    | some (.typeClass _) => return some n
    | _ =>
      report (.notAClass occ) loc
      return none

def predOf (p : Surface.PredExpr) : DeclareM (Option Pred) := do
  return (← classOf p.cls p.loc).map (⟨·, .var p.tyvar⟩)

/-- A written type with all its variables quantified. -/
def schemeOf (q : Surface.QualType) : DeclareM Scheme := do
  let body ← typeOf none q.body
  let preds := (← q.context.mapM predOf).filterMap id
  return ⟨(body.freeVars ++ preds.flatMap (·.arg.freeVars)).eraseDups, preds, body⟩

-- Declarations

/-- The type-level name that a declaration introduces. -/
def typeName : Surface.Decl → DeclareM Unit
  | .data d => do
    if let some n ← define .type d.name d.nameLoc then
      addEntity (.tyCon ⟨n, d.nameLoc, d.tyvars, []⟩)
  | .cls c => do
    if let some n ← define .type c.name c.nameLoc then
      addEntity (.typeClass ⟨n, c.nameLoc, c.tyvar, []⟩)
  | _ => return

def dataCon (d : Surface.DataDecl) (parent : Name) (c : Surface.ConDecl) :
    DeclareM (Option DataCon) := do
  let args ← typesOf (some d.tyvars) c.args
  match ← define .value c.name c.loc with
  | none => return none
  | some n =>
    let result := Ty.conApp parent (d.tyvars.map .var)
    let con : DataCon := ⟨n, c.loc, parent, ⟨d.tyvars, [], Ty.fns args result⟩, args⟩
    addEntity (.dataCon con)
    return some con

/-- Constructors of a type; a declaration that came second has none. -/
def dataCons (d : Surface.DataDecl) : DeclareM Unit := do
  let g := (← get).globals
  match g.entity? (topName g.module .type d.name) with
  | some (.tyCon t) =>
    if t.loc = d.nameLoc then
      let cons ← d.cons.mapM (dataCon d t.name)
      addEntity (.tyCon { t with dataCons := cons.filterMap id })
  | _ => return

def method (cls : Name) (s : Scheme) (name : String × Span) : DeclareM (Option Identifier) := do
  match ← define .value name.1 name.2 with
  | none => return none
  | some n =>
    let m : Identifier := ⟨n, name.2, s, some cls⟩
    addEntity (.ident m)
    return some m

def methodSig (c : Surface.ClassDecl) (cls : Name) (s : Surface.TypeSig) :
    DeclareM (List Identifier) := do
  if !s.ty.context.isEmpty then report .methodContext s.loc
  let body ← typeOf none s.ty.body
  if c.tyvar ∉ body.freeVars then
    let first := (s.names.head?.map (·.1)).getD ""
    report (.methodWithoutVariable first c.name c.tyvar) s.loc
  let others := body.freeVars.filter (· ≠ c.tyvar)
  let ms ← s.names.mapM (method cls ⟨c.tyvar :: others, [⟨cls, .var c.tyvar⟩], body⟩)
  return ms.filterMap id

/-- Methods of a class; a declaration that came second has none. -/
def classMethods (c : Surface.ClassDecl) : DeclareM Unit := do
  let g := (← get).globals
  match g.entity? (topName g.module .type c.name) with
  | some (.typeClass t) =>
    if t.loc = c.nameLoc then
      let ms ← c.sigs.mapM (methodSig c t.name)
      addEntity (.typeClass { t with methods := ms.flatten })
  | _ => return

def primitive (p : Surface.PrimDecl) : DeclareM Unit := do
  let s ← schemeOf p.sig.ty
  p.sig.names.forM fun name => do
    if let some n ← define .value name.1 name.2 then
      addEntity (.ident ⟨n, name.2, s, none⟩)

/-- The value-level names that a declaration introduces. -/
def valueNames : Surface.Decl → DeclareM Unit
  | .data d => dataCons d
  | .cls c => classMethods c
  | .prim p => primitive p
  | .bind b => b.binders.forM fun name => do
    let _ ← define .value name.1 name.2
  | _ => return

/-- What is wrong with a signature for a name. -/
def signatureProblem? (m : Surface.Module) (signed : List String) (occ : String) :
    Option Problem :=
  if signed.contains occ then some (.signatureTwice occ)
  else if m.bindings.any (fun | .pat b => (b.pat.binders.map (·.1)).contains occ | _ => false) then
    some (.signatureOfPattern occ)
  else if m.bindings.any (fun | .fn b => b.name == occ | _ => false) then none
  else some (.signatureWithoutBinding occ)

def signature (m : Surface.Module) : Surface.Decl → DeclareM Unit
  | .sig d => do
    let scheme ← schemeOf d.ty
    d.names.forM fun (occ, loc) => do
      let s ← get
      match signatureProblem? m s.signatures.keys occ with
      | some p => report p loc
      | none =>
        set { s with signatures := s.signatures.put occ scheme }
        let place := (s.places.get? (.value, occ)).getD loc
        addEntity (.ident ⟨topName s.globals.module .value occ, place, scheme, none⟩)
  | _ => return

/-- The variables of an instance head, if it is a constructor at distinct variables. -/
def headTyvars? : Surface.TypeExpr → Option (List String)
  | .con _ args _ => do
    let vs ← args.mapM fun | .var v _ => some v | _ => none
    if vs.Nodup then some vs else none
  | _ => none

def contextPred (tyvars : List String) (p : Surface.PredExpr) : DeclareM (Option Pred) := do
  match ← predOf p with
  | none => return none
  | some q =>
    if p.tyvar ∈ tyvars then return some q
    report (.notInScope .typeVariable p.tyvar) p.loc
    return none

/-- The name of an instance's dictionary. -/
def instanceName (module : String) (cls head : Name) : Name :=
  topName module .value
    ("$f" ++ cls.occ ++ if head = Builtin.listTyCon then "List" else head.occ)

def inst (d : Surface.InstanceDecl) : DeclareM (Option Instance) := do
  match ← classOf d.cls d.loc with
  | none => return none
  | some cls =>
    match headTyvars? d.head with
    | none =>
      report (.illegalHead d.cls) d.head.loc
      return none
    | some tyvars =>
      let headTy ← typeOf none d.head
      let context := (← d.context.mapM (contextPred tyvars)).filterMap id
      let s ← get
      let head := (headTy.unconApp?.map (·.1)).getD cls
      let i : Instance :=
        ⟨instanceName s.globals.module cls head, d.loc, cls, head, tyvars, context⟩
      match s.globals.instanceEnv.find? cls head with
      | some held =>
        report (.instanceTwice d.cls headTy held.loc) d.loc
        return none
      | none =>
        set { s with globals := s.globals.addInstance i, exports := s.exports.addInstance i }
        return some i

def fixity (d : Surface.FixityDecl) : DeclareM Unit :=
  d.ops.forM fun op => do
    let s ← get
    let n := topName s.globals.module .value op
    if !s.places.contains (.value, op) then report (.fixityWithoutBinding op) d.loc
    else if s.exports.fixities.contains n then report (.fixityTwice op) d.loc
    else
      set { s with
        globals := s.globals.addFixity n d.fixity, exports := s.exports.addFixity n d.fixity }

/-- The instances among declarations; fixities are declared by the way. -/
def instancesAndFixities : List Surface.Decl → DeclareM (List (Instance × Surface.InstanceDecl))
  | [] => return []
  | .inst d :: ds => do
    let i ← inst d
    let is ← instancesAndFixities ds
    return i.elim is fun i => (i, d) :: is
  | .fixity d :: ds => do
    fixity d
    instancesAndFixities ds
  | _ :: ds => instancesAndFixities ds

/-- All declarations of a module, but not what its bindings say. -/
def all (m : Surface.Module) : DeclareM (List (Instance × Surface.InstanceDecl)) := do
  if m.name = preludeModule then listEntities.forM wireIn
  m.decls.forM typeName
  m.decls.forM valueNames
  m.decls.forM (signature m)
  instancesAndFixities m.decls

end Declare

end TypeLens.Check
