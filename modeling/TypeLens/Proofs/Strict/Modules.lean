import TypeLens.Proofs.Strict.Declarations
import TypeLens.Proofs.Strict.Inference

/-!
Modules with operations that can break down, and that they never do in a module that is read from a
text, whatever it imports and however many errors are reported on the way.
-/

namespace TypeLens.Check.Strict

variable {m : Surface.Module} {t : Tables} {instances : List (Instance × Surface.InstanceDecl)}

-- Binding groups

/-- Whether names are declared where they stand, up to the first that is not. -/
def owns (d : Declaring) : List (String × Span) → CheckM Bool
  | [] => return true
  | y :: ys => do
    let loc ← need (.place .value y.1) (d.places.get? (.value, y.1))
    if loc = y.2 then owns d ys else return false

/-- The name of a binder, which has to be declared. -/
def binderName (d : Declaring) (occ : String) : CheckM Name := do
  let _ ← need (.place .value occ) (d.places.get? (.value, occ))
  return topName d.globals.module .value occ

/-- The types of names that have been checked. -/
def addSigned (signed : Table Name Scheme) (ids : Bound) : Table Name Scheme :=
  ids.foldl (fun t i => t.put i.2.name i.2.scheme) signed

/-- A group without signatures. Those that repeat a declaration are left out. -/
def unsignedGroup (t : Tables) (g : List Job) : CheckM (List Typed.Bind × Tables) := do
  if !(← owns t.declared (g.flatMap Job.binders)) then return ([], t)
  let (b, polys) ← inferGroup { globals := t.declared.globals } (binderName t.declared) g
  return ([b], ⟨addIdents t.declared polys, addSigned t.signed polys⟩)

/-- A function with a signature. -/
def signedFunction (t : Tables) (j : FunJob) : CheckM (List Typed.Bind × Tables) := do
  let loc ← need (.place .value j.name) (t.declared.places.get? (.value, j.name))
  if loc ≠ j.nameLoc then return ([], t)
  let n := topName t.declared.globals.module .value j.name
  let s ← need (.signature n) (t.signed.get? n)
  return ([← checkSigned { globals := t.declared.globals } ⟨n, s⟩ j], t)

def topGroup (t : Tables) (g : List Job) : CheckM (List Typed.Bind × Tables) := do
  let first ← need .element g.head?
  match first, g.tail with
  | .fn j, [] =>
    if t.declared.signatures.contains j.name then signedFunction t j else unsignedGroup t g
  | _, _ => unsignedGroup t g

def topGroups (t : Tables) : List (List Job) → CheckM (List Typed.Bind × Tables)
  | [] => return ([], t)
  | g :: gs => do
    let (bs, t') ← topGroup t g
    let (bs', t'') ← topGroups t' gs
    return (bs ++ bs', t'')

-- Instances

def methodBinds (env : Env) (c : TypeClass) (i : Instance) (seen : List String) :
    List FunJob → CheckM (List Typed.Bind × List String)
  | [] => return ([], seen)
  | j :: js => do
    match c.methods.find? (·.name.occ == j.name) with
    | none =>
      lift (report (.notAMethod j.name c.name.occ) j.nameLoc)
      methodBinds env c i seen js
    | some m =>
      if seen.contains j.name then
        lift (report (.definedTwice j.name) j.nameLoc)
        methodBinds env c i seen js
      else
        let n ← lift (localName env j.name)
        let b ← checkSigned env ⟨n, methodScheme c.tyvar i m.scheme⟩ j
        let (bs, seen') ← methodBinds env c i (j.name :: seen) js
        return (b :: bs, seen')

/-- The bindings of an instance, whose class has to be known. -/
def instanceBinds (g : Globals) (d : Instance × Surface.InstanceDecl) :
    CheckM (List Typed.Bind) := do
  match g.entity? d.1.cls with
  | some (.typeClass c) =>
    let (bs, seen) ← methodBinds { globals := g } c d.1 [] (d.2.binds.map funJob)
    lift (c.methods.forM fun m =>
      reportIf (!seen.contains m.name.occ) (.missingMethod m.name.occ) d.2.loc)
    return bs
  | _ => throw (.typeClass d.1.cls)

-- Modules

def binds (t : Tables) (instances : List (Instance × Surface.InstanceDecl)) (m : Surface.Module) :
    CheckM (List Typed.Bind × Tables) := do
  let (top, t') ← topGroups t (Surface.groupsOf (jobs m.bindings) t.declared.signatures.keys)
  let methods ← instances.mapM (instanceBinds t'.declared.globals)
  return (top ++ methods.flatten, t')

def elaborate (m : Surface.Module) (imports : List Exports) : Except Fault Elaboration := do
  let (instances, t) ← (Declare.all m).run { declared := .initial m imports }
  let ((bs, t'), s) ← (binds t instances m).run { reports := t.declared.reports }
  return ⟨bs, t'.declared, s⟩

/-- What a module comes to: there is no result if an error is reported. -/
def result (e : Elaboration) : Except Failure Checked :=
  let reports := e.state.reports.reverse
  if reports.any (·.isError) then .error (.source (reports.map (·.diagnostic)))
  else .ok ⟨e.declared.globals, e.declared.exports, e.answers.binds e.binds,
    reports.map (·.diagnostic)⟩

/-- Checks a module, with operations that can break down. -/
def module (m : Surface.Module) (imports : List Exports) : Except Fault (Except Failure Checked) :=
  return result (← elaborate m imports)

-- Groups do not break down

theorem owns_eq {d : Declaring} {ys : List (String × Span)}
    (h : ∀ y ∈ ys, d.places.contains (.value, y.1) = true) :
    owns d ys = pure (ys.all fun y => d.places.get? (.value, y.1) = some y.2) := by
  induction ys with
  | nil => rfl
  | cons y ys ih =>
    obtain ⟨hy, hys⟩ := List.forall_mem_cons.1 h
    obtain ⟨loc, hloc⟩ := Option.isSome_iff_exists.1 hy
    simp only [owns, hloc, need_some, pure_bind, List.all_cons, Option.some.injEq]
    split
    · next heq => rw [ih hys, decide_eq_true heq, Bool.true_and]
    · next hne => rw [decide_eq_false hne, Bool.false_and]

theorem binderName_eq {d : Declaring} {occ : String}
    (h : d.places.contains (.value, occ) = true) :
    binderName d occ = lift (pure (topName d.globals.module .value occ)) := by
  obtain ⟨loc, hloc⟩ := Option.isSome_iff_exists.1 h
  rw [binderName, hloc]
  rfl

/-- What the groups of a module need to be known. -/
structure Ready (m : Surface.Module) (instances : List (Instance × Surface.InstanceDecl))
    (keys : List String) (t : Tables) : Prop extends
    Declare.Linked m t where
  signatures : t.declared.signatures.keys = keys
  classes : ∀ i ∈ instances, t.declared.globals.HasClass i.1.cls

variable {keys : List String}

theorem Ready.identify (ht : Ready m instances keys t) {ids : Bound}
    (hids : ∀ i ∈ ids, i.2.name = topName m.name .value i.1 ∧ i.1 ∉ keys) :
    Ready m instances keys ⟨addIdents t.declared ids, addSigned t.signed ids⟩ := by
  induction ids generalizing t with
  | nil => exact ht
  | cons i ids ih =>
    obtain ⟨⟨hname, hunsigned⟩, hids⟩ := List.forall_mem_cons.1 hids
    let e : Entity :=
      .ident ⟨i.2.name, (t.declared.places.get? (.value, i.1)).getD .unknown, i.2.scheme, none⟩
    refine ih (t := ⟨{ t.declared with
      globals := t.declared.globals.addEntity e
      exports := t.declared.exports.addEntity e }, t.signed.put i.2.name i.2.scheme⟩) ?_ hids
    exact {
      keyed := ⟨ht.keyed.module, Table.forall_mem_put ht.keyed.entities rfl⟩
      places := ht.places
      signed := fun occ s hs => by
        have hmem : occ ∈ keys :=
          ht.signatures ▸ Table.mem_keys_iff.2 (Option.isSome_iff_exists.2 ⟨s, hs⟩)
        rw [Table.get?_put_of_ne, ht.signed occ s hs]
        rw [hname]
        intro heq
        have hocc : i.1 = occ := congrArg Name.occ heq
        exact hunsigned (hocc ▸ hmem)
      signatures := ht.signatures
      classes := fun d hd => by
        obtain ⟨hspace, c, hc⟩ := ht.classes d hd
        refine ⟨hspace, c, (Table.get?_put_of_ne ?_ _ _).trans hc⟩
        intro heq
        have hvalue : e.name.space = .value := congrArg Name.space hname
        rw [← heq, hvalue] at hspace
        cases hspace }

/-- Checking with operations that can break down does what checking does, and leaves tables that
have a property. -/
def Agrees (act : CheckM (List Typed.Bind × Tables))
    (act' : Check.CheckM (List Typed.Bind × Declaring)) (I : Tables → Prop) : Prop :=
  ∀ s, ∃ t, act s = .ok (((act'.run s).1.1, t), (act'.run s).2) ∧
    t.declared = (act'.run s).1.2 ∧ I t

theorem agrees_unsignedGroup (ht : Ready m instances keys t) {g : List Check.Job} (hne : g ≠ [])
    (hplaces : ∀ y ∈ g.flatMap Check.Job.binders, t.declared.places.contains (.value, y.1) = true)
    (hunsigned : ∀ y ∈ g.flatMap Check.Job.binders, y.1 ∉ keys)
    (hmodel : ∀ f, g = [.fn f] → t.declared.signatures.get? f.name = none) :
    Agrees (unsignedGroup t (g.map liftJob)) (Check.topGroup t.declared g)
      (Ready m instances keys) := by
  have howns : owns t.declared ((g.map liftJob).flatMap Job.binders) =
      pure (g.all t.declared.owns) := by
    rw [flatMap_binders_liftJob, owns_eq hplaces, List.all_flatMap]
    rfl
  have hinfer : inferGroup { globals := t.declared.globals } (binderName t.declared)
      (g.map liftJob) = lift (Check.inferGroup { globals := t.declared.globals }
        (fun occ => return topName t.declared.globals.module .value occ) g) :=
    inferGroup_map _ hne fun y hy => binderName_eq (hplaces y hy)
  simp only [unsignedGroup, howns, hinfer, pure_bind]
  intro s
  by_cases hall : ∀ j ∈ g, t.declared.owns j = true
  · rw [List.all_eq_true.2 hall]
    rcases topGroup_of_owns hall with ⟨j, s', hg, hs', -⟩ | ⟨-, heq⟩
    · rw [hmodel j hg] at hs'
      cases hs'
    · rw [heq]
      obtain ⟨hnames, hbinder, -⟩ :=
        returns_binders { globals := t.declared.globals } t.declared.globals.module g s
      refine ⟨_, rfl, rfl, ht.identify fun i hi => ⟨?_, ?_⟩⟩
      · exact ht.keyed.module ▸ hnames i hi
      · obtain ⟨y, hy, hocc⟩ := hbinder i hi
        exact hocc ▸ hunsigned y hy
  · rw [topGroup_of_not_owns hall, Bool.eq_false_iff.2 fun h => hall (List.all_eq_true.1 h)]
    exact ⟨t, rfl, rfl, ht⟩

theorem agrees_signedFunction (ht : Ready m instances keys t) {j : Check.FunJob}
    (hplace : t.declared.places.contains (.value, j.name) = true)
    (hsigned : t.declared.signatures.contains j.name = true) :
    Agrees (signedFunction t (liftFunJob j)) (Check.topGroup t.declared [.fn j])
      (Ready m instances keys) := by
  obtain ⟨loc, hloc⟩ := Option.isSome_iff_exists.1 hplace
  obtain ⟨scheme, hscheme⟩ := Option.isSome_iff_exists.1 hsigned
  have hname : t.signed.get? (topName t.declared.globals.module .value j.name) = some scheme :=
    ht.keyed.module ▸ ht.signed j.name scheme hscheme
  have howns : t.declared.owns (.fn j) = decide (loc = j.nameLoc) := by
    simp [Declaring.owns, Check.Job.binders, hloc]
  have hstrict : signedFunction t (liftFunJob j) = (if loc ≠ j.nameLoc then pure ([], t) else do
      let b ← lift (Check.checkSigned { globals := t.declared.globals }
        ⟨topName t.declared.globals.module .value j.name, scheme⟩ j)
      return ([b], t)) := by
    simp only [signedFunction, liftFunJob, hloc, hname, need_some, pure_bind]
    split
    · rfl
    · exact congrArg (· >>= _) (checkSigned_lift _ _ j)
  rw [hstrict]
  intro s
  by_cases heq : loc = j.nameLoc
  · rw [if_neg (not_not.2 heq)]
    have hall : ∀ j' ∈ [Check.Job.fn j], t.declared.owns j' = true :=
      List.forall_mem_singleton.2 (howns.trans (decide_eq_true heq))
    rcases topGroup_of_owns hall with ⟨j', s', hj', hs', hgroup⟩ | ⟨hnone, -⟩
    · cases hj'
      cases hscheme.symm.trans hs'
      rw [hgroup]
      exact ⟨t, rfl, rfl, ht⟩
    · cases hscheme.symm.trans (hnone j rfl)
  · rw [if_pos heq, topGroup_of_not_owns fun hall => heq ?_]
    · exact ⟨t, rfl, rfl, ht⟩
    · exact of_decide_eq_true (howns.symm.trans (hall _ (List.mem_singleton_self _)))

theorem agrees_topGroup (hm : SignsFunctions m keys) (ht : Ready m instances keys t)
    {g : List Check.Job} (hg : g ∈ Surface.groupsOf (Check.jobs m.bindings) keys) :
    Agrees (topGroup t (g.map liftJob)) (Check.topGroup t.declared g) (Ready m instances keys) := by
  have hne : g ≠ [] := Surface.ne_nil_of_mem_groupsOf hg
  have hplaces : ∀ y ∈ g.flatMap Check.Job.binders,
      t.declared.places.contains (.value, y.1) = true := by
    intro y hy
    obtain ⟨j, hj, hy⟩ := List.mem_flatMap.1 hy
    obtain ⟨x, hx, rfl⟩ := Surface.mem_of_mem_groupsOf hg hj
    obtain ⟨b, hb, rfl⟩ := mem_jobs.1 hx
    exact Table.mem_keys_iff.1 (ht.places b hb y (binders_job b ▸ hy))
  have hkeys (occ : String) : t.declared.signatures.contains occ = true ↔ occ ∈ keys := by
    rw [← ht.signatures, Table.mem_keys_iff]
  by_cases hfn : ∃ f, g = [.fn f] ∧ f.name ∈ keys
  · obtain ⟨f, rfl, hf⟩ := hfn
    have hsigned : t.declared.signatures.contains f.name = true := (hkeys f.name).2 hf
    have hstrict : topGroup t ([Check.Job.fn f].map liftJob) = signedFunction t (liftFunJob f) :=
      if_pos hsigned
    rw [hstrict]
    exact agrees_signedFunction ht (hplaces (f.name, f.nameLoc) (List.mem_singleton_self _)) hsigned
  · have hunsigned : ∀ y ∈ g.flatMap Check.Job.binders, y.1 ∉ keys := by
      intro y hy hsigned
      obtain ⟨f, hf, hname⟩ := signed_alone hm hg hy hsigned
      exact hfn ⟨f, hf, hname ▸ hsigned⟩
    have hstrict : topGroup t (g.map liftJob) = unsignedGroup t (g.map liftJob) := by
      cases g with
      | nil => exact absurd rfl hne
      | cons j js =>
        cases j with
        | pat => rfl
        | fn f =>
          cases js with
          | nil => exact if_neg fun h => hfn ⟨f, rfl, (hkeys f.name).1 h⟩
          | cons => rfl
    rw [hstrict]
    refine agrees_unsignedGroup ht hne hplaces hunsigned fun f hf => ?_
    rw [Table.get?_eq_none_iff, ht.signatures]
    exact fun h => hfn ⟨f, hf, h⟩

theorem agrees_topGroups (hm : SignsFunctions m keys) (ht : Ready m instances keys t)
    {gs : List (List Check.Job)} (hgs : gs ⊆ Surface.groupsOf (Check.jobs m.bindings) keys) :
    Agrees (topGroups t (gs.map (List.map liftJob))) (Check.topGroups t.declared gs)
      (Ready m instances keys) := by
  induction gs generalizing t with
  | nil => exact fun s => ⟨t, rfl, rfl, ht⟩
  | cons g gs ih =>
    intro s
    obtain ⟨hg, hgs⟩ := List.cons_subset.1 hgs
    obtain ⟨t₁, hrun, hdeclared, ht₁⟩ := agrees_topGroup hm ht hg s
    obtain ⟨t₂, hrun', hdeclared', ht₂⟩ := ih ht₁ hgs ((Check.topGroup t.declared g).run s).2
    rw [hdeclared] at hrun' hdeclared'
    refine ⟨t₂, (bind_of_ok hrun _).trans ((bind_of_ok hrun' _).trans rfl), hdeclared', ht₂⟩

-- Instances do not break down

theorem methodBinds_map (env : Env) (c : TypeClass) (i : Instance) (seen : List String)
    (js : List Check.FunJob) : methodBinds env c i seen (js.map liftFunJob) =
      lift (Check.methodBinds env c i seen js) := by
  induction js generalizing seen with
  | nil => rfl
  | cons j js ih =>
    have hname : (liftFunJob j).name = j.name := rfl
    simp only [List.map_cons, methodBinds, Check.methodBinds, hname, checkSigned_lift, ih]
    cases c.methods.find? (·.name.occ == j.name) with
    | none => rfl
    | some m =>
      dsimp only
      split
      · rfl
      · rfl

theorem instanceBinds_eq {g : Globals} {d : Instance × Surface.InstanceDecl}
    (h : g.HasClass d.1.cls) : instanceBinds g d = lift (Check.instanceBinds g d) := by
  obtain ⟨-, c, hc⟩ := h
  have hjobs : d.2.binds.map funJob = (d.2.binds.map Check.funJob).map liftFunJob := by
    rw [List.map_map]
    exact List.map_congr_left fun b _ => funJob_eq b
  simp only [instanceBinds, Check.instanceBinds, hc, hjobs, methodBinds_map]
  rfl

-- Modules do not break down

theorem agrees_binds (hm : SignsFunctions m keys) (ht : Ready m instances keys t) :
    Agrees (binds t instances m) (Check.binds t.declared instances m)
      (Ready m instances keys) := by
  obtain rfl := ht.signatures
  have hgroups : Surface.groupsOf (jobs m.bindings) t.declared.signatures.keys =
      (Surface.groupsOf (Check.jobs m.bindings) t.declared.signatures.keys).map
        (List.map liftJob) := by
    rw [jobs_eq, Surface.groupsOf_map]
  intro s
  obtain ⟨t', hrun, hdeclared, ht'⟩ := agrees_topGroups hm ht (List.Subset.refl _) s
  have hmethods : instances.mapM (instanceBinds t'.declared.globals) =
      lift (instances.mapM (Check.instanceBinds t'.declared.globals)) :=
    embeds_lift.mapM fun d hd => instanceBinds_eq (ht'.classes d hd)
  rw [← hgroups] at hrun
  refine ⟨t', (bind_of_ok hrun _).trans ?_, hdeclared, ht'⟩
  dsimp only
  rw [hmethods, hdeclared]
  rfl

theorem elaborate_eq (hnames : ∀ decl ∈ m.decls, decl.NamesMethods) (imports : List Exports) :
    elaborate m imports = .ok (Check.elaborate m imports) := by
  obtain ⟨t, hall, hdeclared, hlinked, hclasses⟩ := Declare.run_all hnames imports
  have hsigns : SignsFunctions m t.declared.signatures.keys :=
    hdeclared ▸ (declared_of_inductive inductive_signsFunctions fun _ _ _ _ h => by cases h).2
  obtain ⟨t', hrun, hdeclared', -⟩ :=
    agrees_binds hsigns ⟨hlinked, rfl, hclasses⟩ { reports := t.declared.reports }
  let r := (Check.binds (declared m imports).2 (declared m imports).1 m).run
    { reports := (declared m imports).2.reports }
  have hmodel : Check.elaborate m imports = ⟨r.1.1, r.1.2, r.2⟩ := rfl
  rw [hdeclared] at hrun hdeclared'
  rw [hmodel, show r.1.2 = t'.declared from hdeclared'.symm, elaborate]
  show ((Declare.all m) { declared := .initial m imports } >>= _) = _
  rw [hall]
  show (binds t (declared m imports).1 m { reports := t.declared.reports } >>= _) = _
  rw [hdeclared, hrun]
  rfl

/-- Checking a module that is read from a text never breaks down, whatever it imports: all that is
looked up is there, also after errors have been reported. There is a result or there are
diagnostics, with an error among them. -/
theorem module_never_faults {w : Int} {file : Option String} {source : String}
    (h : Surface.parseModule w file source = .ok m) (imports : List Exports) :
    module m imports = .ok (Check.module m imports) ∧
      ∀ f, Check.module m imports = .error f →
        ∃ ds, f = .source ds ∧ ∃ d ∈ ds, d.isError = true := by
  refine ⟨?_, fun f hf => ?_⟩
  · rw [module, elaborate_eq (Surface.namesMethods_parseModule h) imports]
    rfl
  · unfold Check.module at hf
    dsimp only at hf
    split at hf
    · next hany =>
      cases hf
      obtain ⟨r, hr, herror⟩ := List.any_eq_true.1 hany
      exact ⟨_, rfl, r.diagnostic, List.mem_map_of_mem hr, herror⟩
    · cases hf

/-- A type and a class of the same name, a signature for a method, a function that is defined twice
and an instance of a class that is not there. -/
def clashingText : String :=
  "data T = A\nclass T a where\n  k :: a -> a\nk :: T\nf :: T\nf = k\ng = f\nf = A\n" ++
    "instance U T where\n  k x = x"

theorem module_clashing :
    Surface.parseModule 8 none clashingText = .ok (ofText clashingText) ∧
      module (ofText clashingText) [] = .ok (Check.module (ofText clashingText) []) ∧
        ∃ ds, Check.module (ofText clashingText) [] = .error (.source ds) ∧
          ∃ d ∈ ds, d.isError = true := by
  have hparse := @parseModule_ofText clashingText (by decide +kernel)
  obtain ⟨hrun, herror⟩ := module_never_faults hparse []
  have hfails : (Check.module (ofText clashingText) []).toBool = false := by decide +kernel
  refine ⟨hparse, hrun, ?_⟩
  cases hm : Check.module (ofText clashingText) [] with
  | ok k =>
    rw [hm] at hfails
    cases hfails
  | error f =>
    obtain ⟨ds, rfl, hds⟩ := herror f hm
    exact ⟨ds, rfl, hds⟩

end TypeLens.Check.Strict
