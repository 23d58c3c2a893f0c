import TypeLens.Proofs.Checking.Resolution
import TypeLens.Proofs.Checking.Stages
import TypeLens.Proofs.Strict.Operations
import TypeLens.Proofs.Surface.Arities

/-!
Declarations with operations that can break down. The names of types have their places before those
of constructors and methods are declared, and binders have theirs before signatures are read, also
where a declaration is rejected because there is one of the same name; so all of them are found.
-/

namespace TypeLens

namespace Surface

open Concrete

/-- A signature in a class is for one method at least. -/
def Decl.NamesMethods : Decl → Prop
  | .cls c => ∀ s ∈ c.sigs, s.names ≠ []
  | _ => True

theorem Decl.namesMethods_join? {a b c : Decl} (h : a.join? b = some c) : c.NamesMethods := by
  obtain ⟨_, _, _, -, -, -, rfl⟩ := join?_eq_some_iff.1 h
  trivial

variable {file : Option String}

theorem names_buildSignature (s : Signature) :
    Gives (buildSignature file s) fun sig => sig.names ≠ [] :=
  .skip fun _ => .ok (List.cons_ne_nil _ _)

theorem namesMethods_buildDecl (d : Concrete.Decl) :
    Gives (buildDecl file d) Decl.NamesMethods := by
  unfold buildDecl
  cases d with
  | data | signature | primitive | equation | pattern => exact .skip fun _ => .ok trivial
  | fixity =>
    refine .skip fun n => ?_
    split
    · exact .misuse _ _
    · exact .ok trivial
  | typeClass => exact (gives_mapM fun s _ => names_buildSignature s).bind fun _ hsigs => .ok hsigs
  | inst =>
    refine .skip fun q => ?_
    split
    · exact .skip fun _ => .ok trivial
    · exact .misuse _ _

/-- In a module that is read from a text, each signature in a class has a name. -/
theorem namesMethods_parseModule {w : Int} {source : String} {m : Module}
    (h : parseModule w file source = .ok m) : ∀ d ∈ m.decls, d.NamesMethods :=
  forall_decls_of_parseModule (fun d _ => namesMethods_buildDecl d)
    (fun _ _ _ hjoin _ _ => Decl.namesMethods_join? hjoin) h

end Surface

/-- A name that denotes a class. -/
def Globals.HasClass (g : Globals) (n : Name) : Prop :=
  n.space = .type ∧ ∃ c, g.entity? n = some (.typeClass c)

namespace Check

variable {m : Surface.Module} {late : Bool} {d : Declaring}

-- Places

/-- What has a place keeps one. -/
theorem inductive_contains (k : Namespace × String) :
    Inductive m late (·.places.contains k = true) := by
  intro d d' h hd
  cases h with
  | report | complete | sign | identify | inst | fixity => exact hd
  | wireIn | declare | bind => exact Table.contains_put.2 (.inr hd)

/-- What one step brings about, and all changes keep, is so after all steps. -/
theorem changes_forM_of_mem {α : Type} {f : α → DeclareM PUnit} {as : List α} {P : Declaring → Prop}
    (hf : ∀ I, Inductive m true I →
      ∀ a ∈ as, Preserves (fun d => d.Keyed m ∧ I d) (f a) fun _ => True)
    (hP : Inductive m true P) {a : α} (ha : a ∈ as) (hstep : ∀ d, d.Keyed m → P ((f a).run d).2)
    (hd : d.Keyed m) : P ((as.forM f).run d).2 := by
  induction as generalizing d with
  | nil => cases ha
  | cons b as ih =>
    have htail : ∀ I, Inductive m true I →
        ∀ a ∈ as, Preserves (fun d => d.Keyed m ∧ I d) (f a) fun _ => True :=
      fun I hI a ha => hf I hI a (List.mem_cons_of_mem _ ha)
    have hd' : ((f b).run d).2.Keyed m :=
      (hf _ inductive_keyed b (List.mem_cons_self ..) d ⟨hd, hd⟩).1.1
    rcases List.mem_cons.1 ha with rfl | ha
    · exact (Preserves.forM (htail P hP) _ ⟨hd', hstep d hd⟩).1.2
    · exact ih htail ha hd'

namespace Declare

theorem contains_define (space : Namespace) (occ : String) (loc : Span) (d : Declaring) :
    ((define space occ loc).run d).2.places.contains (space, occ) = true := by
  cases h : d.places.get? (space, occ) with
  | some previous =>
    rw [run_define_of_some h]
    exact Option.isSome_iff_exists.2 ⟨previous, h⟩
  | none =>
    rw [run_define_of_none h]
    exact Table.contains_put.2 (.inl rfl)

/-- Whether or not a name is new, it has a place after its declaration. -/
theorem contains_define_bind {space : Namespace} {occ : String} {loc : Span} {α : Type}
    {f : Option Name → DeclareM α}
    (hf : ∀ r, Preserves (·.places.contains (space, occ) = true) (f r) fun _ => True)
    (d : Declaring) :
    ((define space occ loc >>= f).run d).2.places.contains (space, occ) = true :=
  (hf _ _ (contains_define space occ loc d)).1

/-- Types and classes have their places once their names are declared. -/
theorem contains_typeNames (hd : d.Keyed m) :
    ∀ decl ∈ m.decls, ∀ k ∈ typeKey? decl,
      ((m.decls.forM typeName).run d).2.places.contains k = true := by
  have hentity {k : Namespace × String} {f : Option Name → DeclareM Unit} (e : Name → Entity)
      (hnone : f none = pure ()) (hsome : ∀ n, f (some n) = addEntity (e n)) (r : Option Name) :
      Preserves (·.places.contains k = true) (f r) fun _ => True := by
    cases r with
    | none => exact hnone ▸ .pure trivial
    | some n => exact hsome n ▸ .modify fun _ h => h
  have hplace (decl : Surface.Decl) (d : Declaring) (k) (hk : k ∈ typeKey? decl) :
      ((typeName decl).run d).2.places.contains k = true := by
    cases decl with
    | data decl =>
      cases hk
      exact contains_define_bind
        (hentity (fun n => .tyCon ⟨n, decl.nameLoc, decl.tyvars, []⟩) rfl fun _ => rfl) d
    | cls c =>
      cases hk
      exact contains_define_bind
        (hentity (fun n => .typeClass ⟨n, c.nameLoc, c.tyvar, []⟩) rfl fun _ => rfl) d
    | _ => cases hk
  intro decl hdecl k hk
  exact changes_forM_of_mem (fun I hI decl hdecl => changes_typeName hI hdecl)
    (inductive_contains k) hdecl (fun d _ => hplace decl d k hk) hd

/-- Binders have their places once the names of values are declared. -/
theorem covers_valueNames (hd : d.Keyed m) :
    Covers m ((m.decls.forM valueNames).run d).2.places.keys := by
  intro b hb y hy
  rw [Table.mem_keys_iff]
  have hstep (d : Declaring) (hd : d.Keyed m) :
      ((valueNames (.bind b)).run d).2.places.contains (.value, y.1) = true := by
    refine changes_forM_of_mem (fun I hI y hy => changes_binder hI hb hy)
      (inductive_contains (Namespace.value, y.1)) hy (fun d _ => ?_) hd
    exact contains_define_bind (fun _ => .pure trivial) d
  exact changes_forM_of_mem (fun I hI decl hdecl => changes_valueNames hI hdecl)
    (inductive_contains _) (mem_bindings.1 hb) hstep hd

/-- No name has a signature before signatures are read. -/
theorem unsigned_define (space : Namespace) (occ : String) (loc : Span) :
    Preserves (·.signatures = []) (define space occ loc) fun _ => True := by
  intro d hd
  refine ⟨?_, trivial⟩
  cases h : d.places.get? (space, occ) with
  | some previous =>
    rw [run_define_of_some h]
    exact hd
  | none =>
    rw [run_define_of_none h]
    exact hd

theorem unsigned_defineEntity (space : Namespace) (occ : String) (loc : Span) (e : Name → Entity) :
    Preserves (·.signatures = []) (do if let some n ← define space occ loc then addEntity (e n))
      fun _ => True := by
  refine .bind (unsigned_define _ _ _) fun r _ => ?_
  cases r with
  | none => exact .pure trivial
  | some n => exact .modify fun _ hd => hd

theorem reportable_unsigned : Reportable (·.signatures = []) := fun _ _ _ hd => hd

theorem unsigned_typeName (decl : Surface.Decl) :
    Preserves (·.signatures = []) (typeName decl) fun _ => True := by
  cases decl with
  | data d => exact unsigned_defineEntity _ _ _ fun n => .tyCon ⟨n, d.nameLoc, d.tyvars, []⟩
  | cls c => exact unsigned_defineEntity _ _ _ fun n => .typeClass ⟨n, c.nameLoc, c.tyvar, []⟩
  | _ => exact .pure trivial

theorem unsigned_valueNames (decl : Surface.Decl) :
    Preserves (·.signatures = []) (valueNames decl) fun _ => True := by
  have hentity (e : Entity) : Preserves (·.signatures = []) (addEntity e) fun _ => True :=
    .modify fun _ hd => hd
  cases decl with
  | data decl =>
    refine .bind .get fun d _ => ?_
    dsimp only
    split
    · split
      · refine .bind (.mapM (Q := fun _ => True) fun c _ => ?_) fun _ _ => hentity _
        refine .bind (preserves_typesOf reportable_unsigned _ _) fun _ _ => ?_
        refine .bind (unsigned_define _ _ _) fun r _ => ?_
        cases r with
        | none => exact .pure trivial
        | some n => exact .bind (hentity _) fun _ _ => .pure trivial
      · exact .pure trivial
    · exact .pure trivial
  | cls c =>
    refine .bind .get fun d _ => ?_
    dsimp only
    split
    · split
      · refine .bind (.mapM (Q := fun _ => True) fun sig _ => ?_) fun _ _ => hentity _
        refine preserves_reporting reportable_unsigned rfl ?_
        refine .bind (preserves_typeOf reportable_unsigned none _) fun _ _ => ?_
        refine preserves_reporting reportable_unsigned rfl ?_
        refine .bind (.mapM (Q := fun _ => True) fun name _ => ?_) fun _ _ => .pure trivial
        refine .bind (unsigned_define _ _ _) fun r _ => ?_
        cases r with
        | none => exact .pure trivial
        | some n => exact .bind (hentity _) fun _ _ => .pure trivial
      · exact .pure trivial
    · exact .pure trivial
  | prim p =>
    refine .bind (preserves_schemeOf reportable_unsigned _) fun s _ => .forM fun name _ => ?_
    exact unsigned_defineEntity _ _ _ fun n => .ident ⟨n, name.2, s, none⟩
  | bind b => exact .forM fun y _ => .bind (unsigned_define _ _ _) fun _ _ => .pure trivial
  | sig | fixity | inst => exact .pure trivial

end Declare

/-- The names of `d` and what they denote are those of `start`. -/
structure Declaring.KeepsNames (start d : Declaring) : Prop where
  scope : d.globals.scope = start.globals.scope
  entities : d.globals.entities = start.globals.entities
  places : d.places = start.places
  signatures : d.signatures = start.signatures

namespace Declare

variable {start : Declaring}

theorem reportable_keepsNames : Reportable start.KeepsNames :=
  fun _ _ _ hd => ⟨hd.scope, hd.entities, hd.places, hd.signatures⟩

theorem hasClass_classOf (hstart : start.globals.scope.Keyed) (occ : String) (loc : Span) :
    Preserves start.KeepsNames (classOf occ loc) fun r => ∀ n ∈ r, start.globals.HasClass n := by
  intro d hd
  refine ⟨(preserves_classOf reportable_keepsNames occ loc d hd).1, fun n hn => ?_⟩
  rcases run_classOf occ loc d with ⟨d', hrun, -⟩ | ⟨n', c, hrun, hresolve, hc⟩
  · rw [hrun] at hn
    cases hn
  · rw [hrun] at hn
    cases hn
    rw [Globals.entity?, hd.entities] at hc
    exact ⟨(unqualified_of_resolves (hd.scope ▸ hstart) hresolve).1, c, hc⟩

/-- Instances are of classes, and declaring instances and fixities changes no names. -/
theorem hasClass_instancesAndFixities (hstart : start.globals.scope.Keyed)
    (decls : List Surface.Decl) :
    Preserves start.KeepsNames (instancesAndFixities decls)
      fun is => ∀ i ∈ is, start.globals.HasClass i.1.cls := by
  have hinst (decl : Surface.InstanceDecl) := preserves_inst_of_classOf reportable_keepsNames
    (hasClass_classOf hstart decl.cls decl.loc)
    fun _ _ hd _ _ _ => ⟨hd.scope, hd.entities, hd.places, hd.signatures⟩
  have hfixity := preserves_fixity_of (@reportable_keepsNames start)
    fun _ _ _ hd _ _ => ⟨hd.scope, hd.entities, hd.places, hd.signatures⟩
  exact preserves_instancesAndFixities_of
    (fun decl => (hinst decl).weaken fun _ hr i hi => (hr i hi).2) hfixity decls

end Declare

namespace Strict

/-- What is declared so far, with the types of names that have one by a signature or because they
have been checked. -/
structure Tables where
  declared : Declaring
  signed : Table Name Scheme := []

abbrev DeclareM := Attempt Tables

/-- An action on what is declared. -/
def onDeclared {α : Type} (act : Check.DeclareM α) : DeclareM α := fun t =>
  let r := act.run t.declared
  .ok (r.1, { t with declared := r.2 })

theorem embeds_onDeclared : Embeds @onDeclared := ⟨fun _ => rfl, fun _ _ => rfl⟩

theorem onDeclared_bind_apply {α β : Type} (act : Check.DeclareM α) (f : α → DeclareM β)
    (t : Tables) : (onDeclared act >>= f) t =
      f (act.run t.declared).1 { t with declared := (act.run t.declared).2 } := rfl

/-- After an action that returns what has a property, actions have to be the same only for that. -/
theorem onDeclared_bind_of {α β : Type} {P : α → Prop} {act : Check.DeclareM α} {f : α → DeclareM β}
    {g : α → Check.DeclareM β} (h : ∀ d, P (act.run d).1) (hf : ∀ a, P a → f a = onDeclared (g a)) :
    onDeclared act >>= f = onDeclared (act >>= g) := by
  funext t
  exact congrFun (hf _ (h t.declared)) _

/-- Where a name of the module is declared. -/
def place (space : Namespace) (occ : String) : DeclareM Span := do
  need (.place space occ) ((← onDeclared get).places.get? (space, occ))

/-- A name that has a place is found. -/
theorem place_bind_apply {α : Type} {space : Namespace} {occ : String} {loc : Span} {t : Tables}
    (h : t.declared.places.get? (space, occ) = some loc) (f : Span → DeclareM α) :
    (place space occ >>= f) t = f loc t := by
  show (need _ (t.declared.places.get? (space, occ)) >>= f) t = f loc t
  rw [h]
  rfl

/-- Where `I` holds, an action does to the declarations what another one does, and keeps `I`. -/
def Mirrors (I : Tables → Prop) {α : Type} (act : DeclareM α) (act' : Check.DeclareM α) : Prop :=
  ∀ t, I t → ∃ t', act t = .ok ((act'.run t.declared).1, t') ∧
    t'.declared = (act'.run t.declared).2 ∧ I t'

namespace Mirrors

variable {I : Tables → Prop} {J : Declaring → Prop} {α β : Type} {act : DeclareM α}
  {act' : Check.DeclareM α}

theorem bind {f : α → DeclareM β} {f' : α → Check.DeclareM β} (h : Mirrors I act act')
    (hf : ∀ a, Mirrors I (f a) (f' a)) : Mirrors I (act >>= f) (act' >>= f') := by
  intro t ht
  obtain ⟨t₁, hrun, hdeclared, ht₁⟩ := h t ht
  obtain ⟨t₂, hrun', hdeclared', ht₂⟩ := hf (act'.run t.declared).1 t₁ ht₁
  rw [hdeclared] at hrun' hdeclared'
  exact ⟨t₂, (bind_of_ok hrun f).trans hrun', hdeclared', ht₂⟩

theorem forM {f : α → DeclareM PUnit} {f' : α → Check.DeclareM PUnit} {as : List α}
    (h : ∀ a ∈ as, Mirrors I (f a) (f' a)) : Mirrors I (as.forM f) (as.forM f') := by
  induction as with
  | nil => exact fun t ht => ⟨t, rfl, rfl, ht⟩
  | cons a as ih =>
    obtain ⟨ha, has⟩ := List.forall_mem_cons.1 h
    exact bind ha fun _ => ih has

theorem onDeclared {Q : α → Prop} (h : Preserves J act' Q) :
    Mirrors (fun t => J t.declared) (onDeclared act') act' :=
  fun t ht => ⟨{ t with declared := (act'.run t.declared).2 }, rfl, rfl, (h _ ht).1⟩

theorem place {space : Namespace} {occ : String} {f : Span → DeclareM α}
    (hplace : ∀ t, I t → t.declared.places.contains (space, occ) = true)
    (h : ∀ loc, Mirrors I (f loc) act') : Mirrors I (place space occ >>= f) act' := by
  intro t ht
  obtain ⟨loc, hloc⟩ := Option.isSome_iff_exists.1 (hplace t ht)
  obtain ⟨t', hrun, ht'⟩ := h loc t ht
  refine ⟨t', ?_, ht'⟩
  exact (place_bind_apply hloc f).trans hrun

end Mirrors

namespace Declare

def dataCons (d : Surface.DataDecl) : DeclareM Unit := do
  let _ ← place .type d.name
  onDeclared (Check.Declare.dataCons d)

def methodSig (c : Surface.ClassDecl) (cls : Name) (s : Surface.TypeSig) :
    DeclareM (List Identifier) := do
  if !s.ty.context.isEmpty then onDeclared (Check.Declare.report .methodContext s.loc)
  let body ← onDeclared (Check.Declare.typeOf none s.ty.body)
  if c.tyvar ∉ body.freeVars then
    let first ← need .element s.names.head?
    onDeclared (Check.Declare.report (.methodWithoutVariable first.1 c.name c.tyvar) s.loc)
  onDeclared do
    let others := body.freeVars.filter (· ≠ c.tyvar)
    let ms ← s.names.mapM
      (Check.Declare.method cls ⟨c.tyvar :: others, [⟨cls, .var c.tyvar⟩], body⟩)
    return ms.filterMap id

theorem methodSig_eq (c : Surface.ClassDecl) (cls : Name) {s : Surface.TypeSig} (h : s.names ≠ []) :
    methodSig c cls s = onDeclared (Check.Declare.methodSig c cls s) := by
  obtain ⟨first, rest, hnames⟩ := List.exists_cons_of_ne_nil h
  unfold methodSig Check.Declare.methodSig
  simp only [hnames, List.head?_cons, need_some, pure_bind, apply_ite onDeclared,
    embeds_onDeclared.bind, embeds_onDeclared.pure]
  rfl

def classMethods (c : Surface.ClassDecl) : DeclareM Unit := do
  let _ ← place .type c.name
  let g := (← onDeclared get).globals
  match g.entity? (topName g.module .type c.name) with
  | some (.typeClass t) =>
    if t.loc = c.nameLoc then
      let ms ← c.sigs.mapM (methodSig c t.name)
      onDeclared (Check.Declare.addEntity (.typeClass { t with methods := ms.flatten }))
  | _ => return

def valueNames : Surface.Decl → DeclareM Unit
  | .data d => dataCons d
  | .cls c => classMethods c
  | decl => onDeclared (Check.Declare.valueNames decl)

/-- A signature for one name. -/
def sign (m : Surface.Module) (scheme : Scheme) (name : String × Span) : DeclareM Unit := do
  let d ← onDeclared get
  match Check.Declare.signatureProblem? m d.signatures.keys name.1 with
  | some p => onDeclared (Check.Declare.report p name.2)
  | none =>
    let n := topName d.globals.module .value name.1
    onDeclared (modify fun d => { d with signatures := d.signatures.put name.1 scheme })
    let loc ← place .value name.1
    onDeclared (Check.Declare.addEntity (.ident ⟨n, loc, scheme, none⟩))
    modify fun t => { t with signed := t.signed.put n scheme }

def signature (m : Surface.Module) : Surface.Decl → DeclareM Unit
  | .sig d => do
    let scheme ← onDeclared (Check.Declare.schemeOf d.ty)
    d.names.forM (sign m scheme)
  | _ => return

/-- An instance for the constructor that its type has at the head. -/
def inst (d : Surface.InstanceDecl) : DeclareM (Option Instance) := do
  match ← onDeclared (Check.Declare.classOf d.cls d.loc) with
  | none => return none
  | some cls =>
    match Check.Declare.headTyvars? d.head with
    | none => onDeclared do
      Check.Declare.report (.illegalHead d.cls) d.head.loc
      return none
    | some tyvars =>
      let headTy ← onDeclared (Check.Declare.typeOf none d.head)
      let (head, _) ← need (.head headTy) headTy.unconApp?
      onDeclared do
        let context := (← d.context.mapM (Check.Declare.contextPred tyvars)).filterMap id
        let s ← get
        let i : Instance := ⟨Check.Declare.instanceName s.globals.module cls head, d.loc, cls, head,
          tyvars, context⟩
        match s.globals.instanceEnv.find? cls head with
        | some held =>
          Check.Declare.report (.instanceTwice d.cls headTy held.loc) d.loc
          return none
        | none =>
          set { s with globals := s.globals.addInstance i, exports := s.exports.addInstance i }
          return some i

def instancesAndFixities : List Surface.Decl → DeclareM (List (Instance × Surface.InstanceDecl))
  | [] => return []
  | .inst d :: ds => do
    let i ← inst d
    let is ← instancesAndFixities ds
    return i.elim is fun i => (i, d) :: is
  | .fixity d :: ds => do
    onDeclared (Check.Declare.fixity d)
    instancesAndFixities ds
  | _ :: ds => instancesAndFixities ds

/-- The names of types and classes. -/
def typeNames (m : Surface.Module) : Check.DeclareM Unit := do
  if m.name = preludeModule then Check.Declare.listEntities.forM Check.Declare.wireIn
  m.decls.forM Check.Declare.typeName

def all (m : Surface.Module) : DeclareM (List (Instance × Surface.InstanceDecl)) := do
  onDeclared (typeNames m)
  m.decls.forM valueNames
  m.decls.forM (signature m)
  instancesAndFixities m.decls

theorem classMethods_eq {c : Surface.ClassDecl} (h : ∀ s ∈ c.sigs, s.names ≠ []) :
    classMethods c = (do
      let _ ← place .type c.name
      onDeclared (Check.Declare.classMethods c)) := by
  have hsigs (cls : Name) : c.sigs.mapM (methodSig c cls) =
      onDeclared (c.sigs.mapM (Check.Declare.methodSig c cls)) :=
    embeds_onDeclared.mapM fun s hs => methodSig_eq c cls (h s hs)
  unfold classMethods Check.Declare.classMethods
  simp only [hsigs]
  refine congrArg (place .type c.name >>= ·) (funext fun _ => ?_)
  refine onDeclared_bind_of (P := fun _ => True) (fun _ => trivial) fun d _ => ?_
  cases d.globals.entity? (topName d.globals.module .type c.name) with
  | none => rfl
  | some e =>
    cases e with
    | typeClass t =>
      dsimp only
      split
      · rfl
      · rfl
    | _ => rfl

/-- The head of an instance is a type constructor. -/
theorem inst_eq (d : Surface.InstanceDecl) : inst d = onDeclared (Check.Declare.inst d) := by
  refine onDeclared_bind_of (P := fun _ => True) (fun _ => trivial) fun cls _ => ?_
  cases cls with
  | none => rfl
  | some cls =>
    dsimp only
    cases htyvars : Check.Declare.headTyvars? d.head with
    | none => rfl
    | some tyvars =>
      have hhead (s : Declaring) :
          ∃ c ts, ((Check.Declare.typeOf none d.head).run s).1 = .conApp c ts := by
        unfold Check.Declare.headTyvars? at htyvars
        split at htyvars
        · next occ args loc heq =>
          obtain ⟨c, ts, s', hrun, -⟩ := Check.Declare.run_typeOf_con none occ args loc s
          exact ⟨c, ts, by rw [heq, hrun]⟩
        · cases htyvars
      refine onDeclared_bind_of (P := fun t => ∃ c ts, t = .conApp c ts) hhead ?_
      rintro _ ⟨c, ts, rfl⟩
      simp only [Ty.unconApp?_conApp, need_some, pure_bind]
      rfl

theorem instancesAndFixities_eq (decls : List Surface.Decl) :
    instancesAndFixities decls = onDeclared (Check.Declare.instancesAndFixities decls) := by
  induction decls with
  | nil => rfl
  | cons decl decls ih =>
    cases decl with
    | inst d =>
      simp only [instancesAndFixities, inst_eq, ih]
      rfl
    | fixity d =>
      simp only [instancesAndFixities, ih]
      rfl
    | _ => exact ih

/-- Types and classes have places, and there are no signatures yet. -/
structure TypesPlaced (m : Surface.Module) (d : Declaring) : Prop where
  keyed : d.Keyed m
  places : ∀ decl ∈ m.decls, ∀ k ∈ Check.Declare.typeKey? decl, d.places.contains k = true
  unsigned : d.signatures = []

theorem typesPlaced_typeNames (imports : List Exports) :
    TypesPlaced m ((typeNames m).run (.initial m imports)).2 := by
  have hdecls {d : Declaring} (hd : d.Keyed m) (hunsigned : d.signatures = []) :
      TypesPlaced m ((m.decls.forM Check.Declare.typeName).run d).2 := by
    have hkept : Inductive m true (·.Keyed m) := inductive_keyed
    have hkeyed : Preserves (fun d => d.Keyed m ∧ d.Keyed m)
        (m.decls.forM Check.Declare.typeName) fun _ => True :=
      .forM fun _ hdecl => Check.Declare.changes_typeName hkept hdecl
    have hnone : Preserves (·.signatures = []) (m.decls.forM Check.Declare.typeName)
        fun _ => True := .forM fun decl _ => Check.Declare.unsigned_typeName decl
    exact ⟨(hkeyed d ⟨hd, hd⟩).1.1, Check.Declare.contains_typeNames hd, (hnone d hunsigned).1⟩
  unfold typeNames
  split
  · next hm =>
    have hwire : Preserves (fun d => d.Keyed m ∧ d.signatures = [])
        (Check.Declare.listEntities.forM Check.Declare.wireIn) fun _ => True := by
      refine .forM fun e he d hd => ⟨⟨?_, hd.2⟩, trivial⟩
      have hchange : Change m d true _ := .wireIn he hm
      exact inductive_keyed _ _ hchange hd.1
    obtain ⟨hkeyed, hunsigned⟩ := (hwire (.initial m imports) ⟨keyed_initial, rfl⟩).1
    exact hdecls hkeyed hunsigned
  · exact hdecls keyed_initial rfl

theorem preserves_valueNames {decl : Surface.Decl} (hdecl : decl ∈ m.decls) :
    Preserves (TypesPlaced m) (Check.Declare.valueNames decl) fun _ => True := by
  intro d hd
  have hplaces : Inductive m true fun d =>
      ∀ decl ∈ m.decls, ∀ k ∈ Check.Declare.typeKey? decl, d.places.contains k = true :=
    fun d d' h hd decl hdecl k hk => inductive_contains k d d' h (hd decl hdecl k hk)
  obtain ⟨⟨hkeyed, hplaces⟩, -⟩ :=
    Check.Declare.changes_valueNames hplaces hdecl d ⟨hd.keyed, hd.places⟩
  exact ⟨⟨hkeyed, hplaces, (Check.Declare.unsigned_valueNames decl d hd.unsigned).1⟩, trivial⟩

theorem mirrors_valueNames {decl : Surface.Decl} (hdecl : decl ∈ m.decls)
    (hnames : decl.NamesMethods) :
    Mirrors (fun t => TypesPlaced m t.declared) (valueNames decl)
      (Check.Declare.valueNames decl) := by
  have hmodel := Mirrors.onDeclared (preserves_valueNames hdecl)
  cases decl with
  | data d => exact .place (fun t ht => ht.places _ hdecl _ rfl) fun _ => hmodel
  | cls c =>
    rw [valueNames, classMethods_eq hnames]
    exact .place (fun t ht => ht.places _ hdecl _ rfl) fun _ => hmodel
  | _ => exact hmodel

/-- Binders have places, and the signatures of names are those of the module. -/
structure Linked (m : Surface.Module) (t : Tables) : Prop where
  keyed : t.declared.Keyed m
  places : Check.Declare.Covers m t.declared.places.keys
  signed : ∀ occ s, t.declared.signatures.get? occ = some s →
    t.signed.get? (topName m.name .value occ) = some s

theorem Linked.reported {t : Tables} (ht : Linked m t) {d : Declaring}
    (hd : t.declared.Reported d) : Linked m { t with declared := d } := by
  obtain ⟨rs, rfl⟩ := hd
  exact ⟨⟨ht.keyed.module, ht.keyed.entities⟩, ht.places, ht.signed⟩

theorem Linked.sign {t : Tables} (ht : Linked m t) (occ : String) (s : Scheme) (e : Entity) :
    Linked m ⟨{ t.declared with
      signatures := t.declared.signatures.put occ s
      globals := t.declared.globals.addEntity e
      exports := t.declared.exports.addEntity e }, t.signed.put (topName m.name .value occ) s⟩ where
  keyed := ⟨ht.keyed.module, Table.forall_mem_put ht.keyed.entities rfl⟩
  places := ht.places
  signed occ' s' h := by
    dsimp only at h ⊢
    rw [Table.get?_put] at h ⊢
    split at h
    · next heq => rwa [if_pos (heq ▸ rfl)]
    · next hne => rw [if_neg fun heq => hne (congrArg Name.occ heq), ht.signed occ' s' h]

/-- A name with a signature is that of a binding, which has a place. -/
theorem mirrors_signature (decl : Surface.Decl) :
    Mirrors (Linked m) (signature m decl) (Check.Declare.signature m decl) := by
  cases decl with
  | sig decl =>
    refine .bind (fun t ht => ⟨_, rfl, rfl, ht.reported ?_⟩) fun scheme =>
      .forM fun name _ t ht => ?_
    · exact (Check.Declare.preserves_schemeOf reportable_reported decl.ty _ (.refl _)).1
    obtain ⟨occ, loc⟩ := name
    simp only [sign, onDeclared_bind_apply, StateT.run_bind, StateT.run_get, pure_bind]
    cases hproblem : Check.Declare.signatureProblem? m t.declared.signatures.keys occ with
    | some p => exact ⟨_, rfl, rfl, ht.reported ⟨[_], rfl⟩⟩
    | none =>
      have hplace : t.declared.places.contains (.value, occ) = true :=
        Table.mem_keys_iff.1 (Check.Declare.mem_of_signatureProblem? ht.places hproblem)
      obtain ⟨place, hplace⟩ := Option.isSome_iff_exists.1 hplace
      dsimp only
      rw [onDeclared_bind_apply, hplace, Option.getD_some]
      let n := topName t.declared.globals.module .value occ
      let e : Entity := .ident ⟨n, place, scheme, none⟩
      refine ⟨⟨{ t.declared with
        signatures := t.declared.signatures.put occ scheme
        globals := t.declared.globals.addEntity e
        exports := t.declared.exports.addEntity e }, t.signed.put n scheme⟩, ?_, rfl, ?_⟩
      · exact place_bind_apply (t := { t with
          declared := { t.declared with signatures := t.declared.signatures.put occ scheme } })
          hplace _
      · have hlinked := ht.sign occ scheme e
        rwa [← ht.keyed.module] at hlinked
  | _ => exact fun t ht => ⟨t, rfl, rfl, ht⟩

/-- Declarations never break down, whether or not they are rejected; and in the end, all names that
the bindings are checked for are found. -/
theorem run_all (hnames : ∀ decl ∈ m.decls, decl.NamesMethods) (imports : List Exports) :
    ∃ t, all m { declared := .initial m imports } = .ok ((declared m imports).1, t) ∧
      t.declared = (declared m imports).2 ∧ Linked m t ∧
      ∀ i ∈ (declared m imports).1, t.declared.globals.HasClass i.1.cls := by
  have ht₁ := typesPlaced_typeNames (m := m) imports
  obtain ⟨t₂, hrun₂, hdeclared₂, ht₂⟩ := Mirrors.forM
    (fun decl hdecl => mirrors_valueNames hdecl (hnames decl hdecl)) { declared := _ } ht₁
  have hlinked₂ : Linked m t₂ := by
    refine ⟨ht₂.keyed, hdeclared₂ ▸ Check.Declare.covers_valueNames ht₁.keyed, fun occ s h => ?_⟩
    rw [ht₂.unsigned] at h
    cases h
  obtain ⟨t₃, hrun₃, hdeclared₃, ht₃⟩ :=
    Mirrors.forM (fun decl (_ : decl ∈ m.decls) => mirrors_signature decl) t₂ hlinked₂
  have hdeclared₃ : t₃.declared = ((Check.Declare.names m).run (.initial m imports)).2 := by
    rw [hdeclared₃, hdeclared₂]
    unfold typeNames Check.Declare.names
    split <;> rfl
  have hdeclared : declared m imports =
      (Check.Declare.instancesAndFixities m.decls).run t₃.declared := by
    rw [declared, Check.Declare.all_eq, hdeclared₃]
    rfl
  have hrun : all m { declared := .initial m imports } = .ok ((declared m imports).1,
      { t₃ with declared := (declared m imports).2 }) := by
    refine (bind_of_ok hrun₂ fun _ => _).trans ((bind_of_ok hrun₃ fun _ => _).trans ?_)
    rw [instancesAndFixities_eq, hdeclared]
    rfl
  have hscope : t₃.declared.globals.scope.Keyed := by
    have hkept : Inductive m true (·.globals.scope.Keyed) := inductive_scopeKeyed
    rw [hdeclared₃]
    exact (Check.Declare.changes_names hkept _ ⟨keyed_initial, scopeKeyed_initial⟩).1.2
  obtain ⟨hnames, hclasses⟩ := Check.Declare.hasClass_instancesAndFixities hscope m.decls
    t₃.declared ⟨rfl, rfl, rfl, rfl⟩
  rw [← hdeclared] at hnames hclasses
  refine ⟨_, hrun, rfl, ⟨?_, ?_, ?_⟩, fun i hi => ?_⟩
  · exact (declared_of_inductive inductive_keyed keyed_initial).1
  · exact hnames.places ▸ ht₃.places
  · exact hnames.signatures ▸ ht₃.signed
  · obtain ⟨hspace, c, hc⟩ := hclasses i hi
    exact ⟨hspace, c, by rwa [Globals.entity?, hnames.entities]⟩

end Declare

end Strict

end Check

end TypeLens
