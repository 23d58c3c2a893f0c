import TypeLens.Proofs.Checking.TopBindings
import TypeLens.Proofs.Surface.Variables

/-!
The elementary changes that the declarations and the bindings of a module make to what is known of
its top level. What each of them keeps holds of the module in the end, so that an invariant is shown
change by change and not function by function.
-/

namespace TypeLens

/-- Types and classes belong to nothing, and constructors and methods to types and classes. -/
structure Entity.Rooted (e : Entity) : Prop where
  named : e.Named
  top : e.name.space = .type → e.parent? = none
  parent : ∀ n ∈ e.parent?, n.space = .type

namespace Check

/-- One change to what is declared of a module. Instances and fixities come late, when all names are
declared. -/
inductive Change (m : Surface.Module) (d : Declaring) : Bool → Declaring → Prop
  | report {late : Bool} (r : Report) : Change m d late { d with reports := r :: d.reports }
  /-- The list type or one of its constructors, in the bundled module. -/
  | wireIn {late : Bool} {e : Entity} (he : e ∈ Declare.listEntities)
      (hm : m.name = preludeModule) :
      Change m d late { d with
        places := d.places.put (e.name.space, e.name.occ) e.loc
        globals := d.globals.addEntity e
        exports := d.exports.addEntity e }
  /-- A new name with what it denotes. -/
  | declare {late : Bool} {space : Namespace} {occ : String} {e : Entity}
      (hname : e.name = topName m.name space occ) (he : e.Rooted)
      (h : d.places.get? (space, occ) = none) (hintro : (space, occ) ∈ m.introduced) :
      Change m d late { d with
        places := d.places.put (space, occ) e.loc
        globals := Globals.addEntity
          { d.globals with scope := d.globals.scope.add ⟨e.name, e.loc⟩ } e
        exports := d.exports.addEntity e }
  /-- A type or a class with its constructors or methods. -/
  | complete {late : Bool} {occ : String} {e : Entity} (hname : e.name = topName m.name .type occ)
      (he : e.Rooted) (hintro : (.type, occ) ∈ m.introduced) :
      Change m d late { d with globals := d.globals.addEntity e, exports := d.exports.addEntity e }
  /-- A new name of a binding, which denotes nothing yet. -/
  | bind {late : Bool} {b : Surface.Binding} {y : String × Span} (hb : b ∈ m.bindings)
      (hy : y ∈ b.binders) (h : d.places.get? (.value, y.1) = none) :
      Change m d late { d with
        places := d.places.put (.value, y.1) y.2
        globals := { d.globals with
          scope := d.globals.scope.add ⟨topName m.name .value y.1, y.2⟩ } }
  | sign {late : Bool} {occ : String} (s : Scheme) (loc : Span)
      (h : Declare.signatureProblem? m d.signatures.keys occ = none) :
      Change m d late { d with
        signatures := d.signatures.put occ s
        globals := d.globals.addEntity (.ident ⟨topName m.name .value occ, loc, s, none⟩)
        exports := d.exports.addEntity (.ident ⟨topName m.name .value occ, loc, s, none⟩) }
  /-- What a binding defines, once it is checked. -/
  | identify {late : Bool} (occ : String) (s : Scheme) (loc : Span)
      (hintro : (.value, occ) ∈ m.introduced) :
      Change m d late { d with
        globals := d.globals.addEntity (.ident ⟨topName m.name .value occ, loc, s, none⟩)
        exports := d.exports.addEntity (.ident ⟨topName m.name .value occ, loc, s, none⟩) }
  | inst {i : Instance} (hname : i.name = Declare.instanceName m.name i.cls i.head)
      (h : d.globals.instanceEnv.find? i.cls i.head = none) :
      Change m d true { d with
        globals := d.globals.addInstance i
        exports := d.exports.addInstance i }
  | fixity {op : String} (f : Fixity) (hplace : d.places.contains (.value, op) = true)
      (h : d.exports.fixities.contains (topName m.name .value op) = false) :
      Change m d true { d with
        globals := d.globals.addFixity (topName m.name .value op) f
        exports := d.exports.addFixity (topName m.name .value op) f }

/-- What is kept by every change; or by every one that is not late. -/
def Inductive (m : Surface.Module) (late : Bool) (I : Declaring → Prop) : Prop :=
  ∀ d d', Change m d late d' → I d → I d'

/-- The declarations are those of the module, and what a name denotes has that name. -/
structure Declaring.Keyed (m : Surface.Module) (d : Declaring) : Prop where
  module : d.globals.module = m.name
  entities : ∀ p ∈ d.globals.entities, p.1 = p.2.name

variable {m : Surface.Module} {late : Bool} {d : Declaring} {I : Declaring → Prop}

theorem inductive_keyed : Inductive m late (·.Keyed m) := by
  intro d d' h hd
  cases h with
  | report | bind | inst | fixity => exact ⟨hd.module, hd.entities⟩
  | wireIn | complete | sign | identify => exact ⟨hd.module, Table.forall_mem_put hd.entities rfl⟩
  | declare => exact ⟨hd.module, Table.forall_mem_put hd.entities rfl⟩

theorem Declaring.Keyed.of_entity? (hd : d.Keyed m) {n : Name} {e : Entity}
    (h : d.globals.entity? n = some e) : n = e.name := hd.entities _ (Table.mem_of_get? h)

theorem rooted_of_type {e : Entity} {occ : String} (h : e.name = topName m.name .type occ)
    (hparent : e.parent? = none) : e.Rooted := by
  refine ⟨Declare.named_of_type h.symm, fun _ => hparent, fun n hn => ?_⟩
  rw [hparent] at hn
  cases hn

theorem rooted_of_value {e : Entity} {occ : String} (h : e.name = topName m.name .value occ)
    (he : e.isValue) (hparent : ∀ n ∈ e.parent?, n.space = .type) : e.Rooted where
  named := Declare.named_of_value h he
  top hspace := by
    rw [h] at hspace
    cases hspace
  parent := hparent

theorem rooted_of_ident {i : Identifier} {occ : String} (h : i.name = topName m.name .value occ)
    (hparent : i.parent = none) : (Entity.ident i).Rooted :=
  rooted_of_value h rfl fun n hn => by rw [Entity.parent?, hparent] at hn; cases hn

theorem rooted_listEntities : ∀ e ∈ Declare.listEntities, e.Rooted := by
  have hlist : ∀ n ∈ some Builtin.listTyCon, n.space = .type := by
    intro n hn
    cases hn
    rfl
  refine List.forall_mem_cons.2 ⟨?_, List.forall_mem_cons.2 ⟨?_, List.forall_mem_singleton.2 ?_⟩⟩
  · exact rooted_of_type (m := .empty preludeModule) rfl rfl
  · exact rooted_of_value (m := .empty preludeModule) rfl rfl hlist
  · exact rooted_of_value (m := .empty preludeModule) rfl rfl hlist

variable {decl : Surface.Decl} {b : Surface.Binding} {y : String × Span}

theorem mem_introduced {k : Namespace × String} (hdecl : decl ∈ m.decls)
    (hk : k ∈ decl.introduced) : k ∈ m.introduced := List.mem_flatMap.2 ⟨decl, hdecl, hk⟩

theorem binder_mem_introduced (hb : b ∈ m.bindings) (hy : y ∈ b.binders) :
    (.value, y.1) ∈ m.introduced :=
  mem_introduced (Declare.mem_bindings.1 hb)
    (List.mem_map_of_mem (f := fun n : String × Span => (Namespace.value, n.1)) hy)

/-- Only what the module binds has a signature. -/
theorem signed_mem_introduced {signed : List String} {occ : String}
    (h : Declare.signatureProblem? m signed occ = none) : (.value, occ) ∈ m.introduced := by
  unfold Declare.signatureProblem? at h
  split at h
  · cases h
  split at h
  · cases h
  split at h
  · next hany =>
    obtain ⟨b, hb, hname⟩ := List.any_eq_true.1 hany
    cases b with
    | fn f =>
      obtain rfl : f.name = occ := eq_of_beq hname
      exact binder_mem_introduced hb (List.mem_singleton_self (f.name, f.nameLoc))
    | pat => cases hname
  · cases h

theorem Inductive.reportable (hI : Inductive m late I) : Reportable I :=
  fun d r _ hd => hI d _ (.report r) hd

theorem Inductive.keyed (hI : Inductive m late I) : Inductive m late fun d => d.Keyed m ∧ I d :=
  fun d d' h hd => ⟨inductive_keyed d d' h hd.1, hI d d' h hd.2⟩

namespace Declare

variable (m) in
/-- Declares all names, with their signatures. -/
def names : DeclareM Unit := do
  if m.name = preludeModule then listEntities.forM wireIn
  m.decls.forM typeName
  m.decls.forM valueNames
  m.decls.forM (signature m)

theorem all_eq : all m = (do names m; instancesAndFixities m.decls) := by
  unfold all names
  split <;> rfl

section

variable (hI : Inductive m late I)
include hI

/-- A name is declared together with what it denotes. -/
theorem changes_define {α : Type} {space : Namespace} {occ : String} {e : Name → Entity}
    {f : Option Name → DeclareM α} (hintro : (space, occ) ∈ m.introduced)
    (hname : ∀ n, (e n).name = n) (he : (e (topName m.name space occ)).Rooted)
    (hnone : Preserves (fun d => d.Keyed m ∧ I d) (f none) fun _ => True)
    (hsome : ∀ n, ∃ g : DeclareM α, f (some n) = (do addEntity (e n); g) ∧
      Preserves (fun d => d.Keyed m ∧ I d) g fun _ => True) :
    Preserves (fun d => d.Keyed m ∧ I d)
      (define space occ (e (topName m.name space occ)).loc >>= f) fun _ => True := by
  intro d hd
  rw [StateT.run_bind]
  let n := topName m.name space occ
  cases hp : d.places.get? (space, occ) with
  | some previous =>
    rw [run_define_of_some hp]
    exact hnone _ (hI.keyed _ _ (.report _) hd)
  | none =>
    rw [run_define_of_none hp, hd.1.module]
    obtain ⟨g, hf, hg⟩ := hsome n
    show _ ∧ True
    refine ⟨?_, trivial⟩
    have hchange := hI.keyed _ _ (Change.declare (e := e n) (hname n) he hp hintro) hd
    rw [hname n] at hchange
    show ((f (some n)).run _).2.Keyed m ∧ I ((f (some n)).run _).2
    rw [hf]
    exact (hg _ hchange).1

theorem changes_complete {occ : String} {e : Entity} (hintro : (.type, occ) ∈ m.introduced)
    (hname : e.name = topName m.name .type occ) (hparent : e.parent? = none) :
    Preserves (fun d => d.Keyed m ∧ I d) (addEntity e) fun _ => True :=
  .modify fun _ hd => hI.keyed _ _ (.complete hname (rooted_of_type hname hparent) hintro) hd

theorem changes_typeName (hdecl : decl ∈ m.decls) :
    Preserves (fun d => d.Keyed m ∧ I d) (typeName decl) fun _ => True := by
  cases decl with
  | data d =>
    have hintro : (.type, d.name) ∈ m.introduced := mem_introduced hdecl List.mem_cons_self
    exact changes_define hI hintro (e := fun n => .tyCon ⟨n, d.nameLoc, d.tyvars, []⟩)
      (fun _ => rfl) (rooted_of_type rfl rfl) (.pure trivial) fun _ => ⟨pure ⟨⟩, rfl, .pure trivial⟩
  | cls c =>
    have hintro : (.type, c.name) ∈ m.introduced := mem_introduced hdecl List.mem_cons_self
    exact changes_define hI hintro (e := fun n => .typeClass ⟨n, c.nameLoc, c.tyvar, []⟩)
      (fun _ => rfl) (rooted_of_type rfl rfl) (.pure trivial) fun _ => ⟨pure ⟨⟩, rfl, .pure trivial⟩
  | _ => exact .pure trivial

theorem changes_dataCon (decl : Surface.DataDecl) {parent : Name} (hparent : parent.space = .type)
    {c : Surface.ConDecl} (hintro : (.value, c.name) ∈ m.introduced) :
    Preserves (fun d => d.Keyed m ∧ I d) (dataCon decl parent c) fun _ => True := by
  refine .bind (preserves_typesOf hI.keyed.reportable _ _) fun args _ => ?_
  let con (n : Name) : DataCon := ⟨n, c.loc, parent, ⟨decl.tyvars, [],
    Ty.fns args (.conApp parent (decl.tyvars.map .var))⟩, args⟩
  have he : (Entity.dataCon (con (topName m.name .value c.name))).Rooted :=
    rooted_of_value rfl rfl fun n hn => by cases hn; exact hparent
  exact changes_define hI hintro (e := fun n => .dataCon (con n)) (fun _ => rfl) he (.pure trivial)
    fun n => ⟨_, rfl, .pure trivial⟩

theorem changes_dataCons {decl : Surface.DataDecl} (hdecl : .data decl ∈ m.decls) :
    Preserves (fun d => d.Keyed m ∧ I d) (dataCons decl) fun _ => True := by
  have hcon {c : Surface.ConDecl} (hc : c ∈ decl.cons) : (.value, c.name) ∈ m.introduced :=
    mem_introduced hdecl (List.mem_cons_of_mem _ (List.mem_map_of_mem hc))
  unfold dataCons
  refine .bind .get fun s hs => ?_
  dsimp only
  split
  · next t ht =>
    split
    · rw [hs.1.module] at ht
      have hname : topName m.name .type decl.name = t.name := hs.1.of_entity? ht
      refine .bind (.mapM fun c hc => changes_dataCon hI _ (hname ▸ rfl) (hcon hc)) fun cons _ => ?_
      exact changes_complete hI (mem_introduced hdecl List.mem_cons_self) hname.symm rfl
    · exact .pure trivial
  · exact .pure trivial

theorem changes_method {cls : Name} (hcls : cls.space = .type) (s : Scheme)
    {name : String × Span} (hintro : (.value, name.1) ∈ m.introduced) :
    Preserves (fun d => d.Keyed m ∧ I d) (method cls s name) fun _ => True := by
  have he : (Entity.ident ⟨topName m.name .value name.1, name.2, s, some cls⟩).Rooted :=
    rooted_of_value rfl rfl fun n hn => by cases hn; exact hcls
  exact changes_define hI hintro (e := fun n => .ident ⟨n, name.2, s, some cls⟩) (fun _ => rfl) he
    (.pure trivial) fun _ => ⟨_, rfl, .pure trivial⟩

theorem changes_classMethods {c : Surface.ClassDecl} (hdecl : .cls c ∈ m.decls) :
    Preserves (fun d => d.Keyed m ∧ I d) (classMethods c) fun _ => True := by
  have hreport := hI.keyed.reportable
  have hmethod {sig : Surface.TypeSig} (hsig : sig ∈ c.sigs) {name : String × Span}
      (hname : name ∈ sig.names) : (.value, name.1) ∈ m.introduced :=
    mem_introduced hdecl (List.mem_cons_of_mem _
      (List.mem_map_of_mem (List.mem_flatMap.2 ⟨sig, hsig, hname⟩)))
  have hsig {cls : Name} (hcls : cls.space = .type) {sig : Surface.TypeSig} (hsig : sig ∈ c.sigs) :
      Preserves (fun d => d.Keyed m ∧ I d) (methodSig c cls sig) fun _ => True := by
    refine preserves_reporting hreport rfl (.bind (preserves_typeOf hreport none _) fun _ _ => ?_)
    refine preserves_reporting hreport rfl ?_
    exact .bind (.mapM fun name hname => changes_method hI hcls _ (hmethod hsig hname))
      fun _ _ => .pure trivial
  unfold classMethods
  refine .bind .get fun s hs => ?_
  dsimp only
  split
  · next t ht =>
    split
    · rw [hs.1.module] at ht
      have hname : topName m.name .type c.name = t.name := hs.1.of_entity? ht
      refine .bind (.mapM fun sig h => hsig (hname ▸ rfl) h) fun ms _ => ?_
      exact changes_complete hI (mem_introduced hdecl List.mem_cons_self) hname.symm rfl
    · exact .pure trivial
  · exact .pure trivial

theorem changes_primitive {p : Surface.PrimDecl} (hdecl : .prim p ∈ m.decls) :
    Preserves (fun d => d.Keyed m ∧ I d) (primitive p) fun _ => True := by
  refine .bind (preserves_schemeOf hI.keyed.reportable _) fun s _ => .forM fun name hname => ?_
  have hintro : (.value, name.1) ∈ m.introduced := mem_introduced hdecl (List.mem_map_of_mem hname)
  exact changes_define hI hintro (e := fun n => .ident ⟨n, name.2, s, none⟩) (fun _ => rfl)
    (rooted_of_ident rfl rfl) (.pure trivial) fun _ => ⟨pure ⟨⟩, rfl, .pure trivial⟩

theorem changes_binder (hb : b ∈ m.bindings) (hy : y ∈ b.binders) :
    Preserves (fun d => d.Keyed m ∧ I d) (do let _ ← define .value y.1 y.2) fun _ => True := by
  intro d hd
  refine ⟨?_, trivial⟩
  show ((define .value y.1 y.2).run d).2.Keyed m ∧ I ((define .value y.1 y.2).run d).2
  cases hp : d.places.get? (.value, y.1) with
  | some previous =>
    rw [run_define_of_some hp]
    exact hI.keyed _ _ (.report _) hd
  | none =>
    rw [run_define_of_none hp, hd.1.module]
    exact hI.keyed _ _ (.bind hb hy hp) hd

theorem changes_valueNames (hdecl : decl ∈ m.decls) :
    Preserves (fun d => d.Keyed m ∧ I d) (valueNames decl) fun _ => True := by
  cases decl with
  | data d => exact changes_dataCons hI hdecl
  | cls c => exact changes_classMethods hI hdecl
  | prim p => exact changes_primitive hI hdecl
  | bind b => exact .forM fun y hy => changes_binder hI (mem_bindings.2 hdecl) hy
  | sig | fixity | inst => exact .pure trivial

theorem changes_signature (decl : Surface.Decl) :
    Preserves (fun d => d.Keyed m ∧ I d) (signature m decl) fun _ => True := by
  cases decl with
  | sig d =>
    refine .bind (preserves_schemeOf hI.keyed.reportable _) fun scheme _ =>
      .forM fun name _ d hd => ?_
    simp only [StateT.run_bind, StateT.run_get, pure_bind]
    split
    · exact ⟨hI.keyed _ _ (.report _) hd, trivial⟩
    · next hnone =>
      have hchange := hI.keyed _ _ (Change.sign scheme
        ((d.places.get? (.value, name.1)).getD name.2) hnone) hd
      rw [← hd.1.module] at hchange
      exact ⟨hd.1.module ▸ hchange, trivial⟩
  | _ => exact .pure trivial

/-- All names of a module are declared, with their signatures. -/
theorem changes_names : Preserves (fun d => d.Keyed m ∧ I d) (names m) fun _ => True := by
  have hrest : Preserves (fun d => d.Keyed m ∧ I d) (do
      m.decls.forM typeName
      m.decls.forM valueNames
      m.decls.forM (signature m)) fun _ => True :=
    .bind (.forM fun _ hdecl => changes_typeName hI hdecl) fun _ _ =>
      .bind (.forM fun _ hdecl => changes_valueNames hI hdecl) fun _ _ =>
        .forM fun decl _ => changes_signature hI decl
  unfold names
  split
  · next hm =>
    refine .bind (.forM fun e he => ?_) fun _ _ => hrest
    exact fun d hd => ⟨hI.keyed _ _ (.wireIn he hm) hd, trivial⟩
  · exact hrest

end

section

variable (hI : Inductive m true I)
include hI

theorem changes_inst (decl : Surface.InstanceDecl) :
    Preserves (fun d => d.Keyed m ∧ I d) (inst decl) fun _ => True :=
  (preserves_inst_of hI.keyed.reportable (fun _ _ hd _ hname hnone =>
    hI.keyed _ _ (.inst (hd.1.module ▸ hname) hnone) hd) decl).weaken fun _ _ => trivial

theorem changes_fixity (decl : Surface.FixityDecl) :
    Preserves (fun d => d.Keyed m ∧ I d) (fixity decl) fun _ => True := by
  refine preserves_fixity_of hI.keyed.reportable (fun d op f hd hplace hnew => ?_) decl
  rw [hd.1.module] at hnew ⊢
  exact hI.keyed _ _ (.fixity f hplace hnew) hd

theorem changes_instancesAndFixities (decls : List Surface.Decl) :
    Preserves (fun d => d.Keyed m ∧ I d) (instancesAndFixities decls) fun _ => True := by
  have hinst (decl : Surface.InstanceDecl) : Preserves (fun d => d.Keyed m ∧ I d) (inst decl)
      fun r => ∀ i ∈ r, True := (changes_inst hI decl).weaken fun _ _ _ _ => trivial
  exact (preserves_instancesAndFixities_of hinst (changes_fixity hI) decls).weaken
    fun _ _ => trivial

theorem changes_all : Preserves (fun d => d.Keyed m ∧ I d) (all m) fun _ => True := by
  rw [all_eq]
  exact .bind (changes_names hI) fun _ _ => changes_instancesAndFixities hI m.decls

end

end Declare

variable {imports : List Exports}

/-- What is kept by every entity and every instance that is imported holds of what is known before
any declaration. -/
theorem initial_of_imported {J : Globals → Prop}
    (hentity : ∀ x ∈ imports, ∀ e ∈ x.entities.values, ∀ g, J g → J (g.addEntity e))
    (hinst : ∀ x ∈ imports, ∀ i ∈ x.instances, ∀ g, J g → J (g.addInstance i))
    (hfixities : ∀ g fixities, J g → J { g with fixities }) (hempty : J (.empty m.name)) :
    J (Declaring.initial m imports).globals := by
  have hfold {α : Type} {add : Globals → α → Globals} {as : List α}
      (hadd : ∀ a ∈ as, ∀ g, J g → J (add g a)) {g : Globals} (hg : J g) : J (as.foldl add g) := by
    induction as generalizing g with
    | nil => exact hg
    | cons a as ih =>
      obtain ⟨ha, has⟩ := List.forall_mem_cons.1 hadd
      exact ih has (ha g hg)
  refine hfold (fun x hx g hg => hfold (fun i hi g hg => ?_)
    (hfixities _ _ (hfold (hentity x hx) hg))) hempty
  unfold Globals.importInstance
  split
  · exact hg
  · exact hinst x hx i hi g hg

theorem keyed_initial : (Declaring.initial m imports).Keyed m := by
  let J (g : Globals) : Prop := g.module = m.name ∧ ∀ p ∈ g.entities, p.1 = p.2.name
  have h : J (Declaring.initial m imports).globals :=
    initial_of_imported (fun _ _ _ _ _ hg => ⟨hg.1, Table.forall_mem_put hg.2 rfl⟩)
      (fun _ _ _ _ _ hg => hg) (fun _ _ hg => hg) ⟨rfl, fun _ h => absurd h List.not_mem_nil⟩
  exact ⟨h.1, h.2⟩

theorem changes_addIdents (hI : Inductive m late I) {ids : Bound}
    (hids : ∀ i ∈ ids, i.2.name = topName m.name .value i.1 ∧ (.value, i.1) ∈ m.introduced)
    (hd : d.Keyed m ∧ I d) : (addIdents d ids).Keyed m ∧ I (addIdents d ids) := by
  induction ids generalizing d with
  | nil => exact hd
  | cons i ids ih =>
    obtain ⟨⟨hname, hintro⟩, hids⟩ := List.forall_mem_cons.1 hids
    have hchange := hI.keyed d _ (.identify i.1 i.2.scheme
      ((d.places.get? (.value, i.1)).getD .unknown) hintro) hd
    rw [← hname] at hchange
    exact ih hids hchange

theorem changes_topGroup (hI : Inductive m late I) (hd : d.Keyed m ∧ I d) {g : List Job}
    (hg : ∀ y ∈ g.flatMap Job.binders, (.value, y.1) ∈ m.introduced) :
    Returns (topGroup d g) fun r => r.2.Keyed m ∧ I r.2 := by
  by_cases howns : ∀ j ∈ g, d.owns j = true
  · rcases topGroup_of_owns howns with ⟨j, s, -, -, heq⟩ | ⟨-, heq⟩
    · rw [heq]
      exact .skip fun _ => .pure hd
    · rw [heq, hd.1.module]
      refine .bind (returns_binders _ m.name g) fun r hr => .pure ?_
      refine changes_addIdents hI (fun i hi => ⟨hr.1 i hi, ?_⟩) hd
      obtain ⟨y, hy, hocc⟩ := hr.2.1 i hi
      exact hocc ▸ hg y hy
  · rw [topGroup_of_not_owns howns]
    exact .pure hd

theorem changes_binds (hI : Inductive m late I) (hd : d.Keyed m ∧ I d)
    (instances : List (Instance × Surface.InstanceDecl)) :
    Returns (binds d instances m) fun r => r.2.Keyed m ∧ I r.2 := by
  have hgroups {gs : List (List Job)} {d : Declaring} (hd : d.Keyed m ∧ I d)
      (hgs : ∀ g ∈ gs, ∀ y ∈ g.flatMap Job.binders, (.value, y.1) ∈ m.introduced) :
      Returns (topGroups d gs) fun r => r.2.Keyed m ∧ I r.2 := by
    induction gs generalizing d with
    | nil => exact .pure hd
    | cons g gs ih =>
      obtain ⟨hg, hgs⟩ := List.forall_mem_cons.1 hgs
      exact .bind (changes_topGroup hI hd hg) fun r hr => .bind (ih hr hgs) fun _ hr' => .pure hr'
  refine .bind (hgroups hd fun g hg y hy => ?_) fun _ hr => .skip fun _ => .pure hr
  obtain ⟨j, hj, hy⟩ := List.mem_flatMap.1 hy
  obtain ⟨x, hx, rfl⟩ := Surface.mem_of_mem_groupsOf hg hj
  obtain ⟨b, hb, rfl⟩ := mem_jobs.1 hx
  exact binder_mem_introduced hb (binders_job b ▸ hy)

/-- What every change keeps, and holds before any declaration, holds after all declarations. -/
theorem declared_of_inductive (hI : Inductive m true I) (h : I (.initial m imports)) :
    (declared m imports).2.Keyed m ∧ I (declared m imports).2 :=
  (Declare.changes_all hI (.initial m imports) ⟨keyed_initial, h⟩).1

/-- It holds when the bindings are checked, too. -/
theorem elaborated_of_inductive (hI : Inductive m true I) (h : I (.initial m imports)) :
    (elaborate m imports).declared.Keyed m ∧ I (elaborate m imports).declared :=
  changes_binds hI (declared_of_inductive hI h) (declared m imports).1 _

end Check

end TypeLens
