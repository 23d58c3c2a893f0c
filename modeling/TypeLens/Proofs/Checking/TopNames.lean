import TypeLens.Proofs.Checking.Naming

/-!
What is known of names at the top level while a module is declared and checked: only bindings that
are not checked yet have names that denote nothing.
-/

namespace TypeLens.Check

/-- The name is that of a binding of the module. -/
def Defines (m : Surface.Module) (n : Name) : Prop :=
  ∃ b ∈ m.bindings, ∃ y ∈ b.binders, n = topName m.name .value y.1

/-- What has been declared of a module since `start`, if only of the names in `bare` it is not known
what they denote. -/
structure Declaring.Tidy (m : Surface.Module) (bare : Name → Prop) (d start : Declaring) :
    Prop where
  module : d.globals.module = m.name
  globals : d.globals.Named bare
  exports : d.exports.Named
  signatures : ∀ occ, d.signatures.contains occ = true →
    (d.globals.entity? (topName m.name .value occ)).isSome
  places : ∀ k l, start.places.get? k = some l → d.places.get? k = some l
  reports : start.reports ⊆ d.reports

variable {m : Surface.Module} {bare bare' : Name → Prop} {start d : Declaring}

theorem not_isLocal_topName {module : String} {space : Namespace} {occ : String} :
    ¬ (topName module space occ).IsLocal := fun h => h rfl

namespace Declaring.Tidy

theorem restart (hd : d.Tidy m bare start) : d.Tidy m bare d :=
  { hd with places := fun _ _ h => h, reports := fun _ h => h }

theorem trans {start' : Declaring} (hd : d.Tidy m bare start) (hs : start.Tidy m bare' start') :
    d.Tidy m bare start' :=
  { hd with
    places := fun k l h => hd.places k l (hs.places k l h)
    reports := fun _ hr => hd.reports (hs.reports hr) }

theorem mono (hd : d.Tidy m bare start)
    (h : ∀ n, bare n → (d.globals.entity? n).isSome ∨ bare' n) : d.Tidy m bare' start :=
  { hd with globals := hd.globals.mono h }

theorem report (hd : d.Tidy m bare start) (r : Report) :
    { d with reports := r :: d.reports }.Tidy m bare start :=
  { hd with reports := fun _ h => List.mem_cons_of_mem _ (hd.reports h) }

theorem addEntity (hd : d.Tidy m bare start) {e : Entity} (he : e.Named) :
    { d with globals := d.globals.addEntity e, exports := d.exports.addEntity e }.Tidy m
      (fun n => bare n ∧ n ≠ e.name) start where
  module := hd.module
  globals := hd.globals.addEntity he
  exports := hd.exports.addEntity he
  signatures occ h := Globals.isSome_entity?_addEntity.2 (.inr (hd.signatures occ h))
  places := hd.places
  reports := hd.reports

theorem sign (hd : d.Tidy m bare start) {occ : String} (s : Scheme) {e : Entity}
    (hname : e.name = topName m.name .value occ) (he : e.Named) :
    { d with
      signatures := d.signatures.put occ s
      globals := d.globals.addEntity e
      exports := d.exports.addEntity e }.Tidy m bare start :=
  { (hd.addEntity he).mono fun _ h => .inr h.1 with
    signatures := fun occ' h => by
      rcases Table.contains_put.1 h with rfl | h
      · exact Globals.isSome_entity?_addEntity.2 (.inl hname)
      · exact Globals.isSome_entity?_addEntity.2 (.inr (hd.signatures occ' h)) }

/-- A name that is declared has a place, and denotes nothing at first. -/
theorem declare (hd : d.Tidy m bare start) {space : Namespace} {occ : String} (loc : Span)
    (hk : d.places.get? (space, occ) = none) :
    { d with
      places := d.places.put (space, occ) loc
      globals := { d.globals with
        scope := d.globals.scope.add ⟨topName m.name space occ, loc⟩ } }.Tidy m
      (fun n => bare n ∨ n = topName m.name space occ) start :=
  { hd with
    globals := (hd.globals.mono fun _ h => .inr (.inl h)).declare not_isLocal_topName
      fun _ => .inr rfl
    places := fun k l h => by
      have hd' := hd.places k l h
      rw [Table.get?_put_of_ne fun heq => ?_]
      · exact hd'
      · rw [← heq, hk] at hd'
        cases hd' }

end Declaring.Tidy

theorem reportable_tidy : Reportable (·.Tidy m bare start) := fun _ r _ hd => hd.report r

namespace Declare

theorem preserves_addEntity {e : Entity} (he : e.Named) :
    Preserves (·.Tidy m bare start) (addEntity e) fun _ => True :=
  .modify fun _ hd => (hd.addEntity he).mono fun _ h => .inr h.1

/-- A name is reported, or it has its place. -/
theorem tidy_define (hd : d.Tidy m bare start) (space : Namespace) (occ : String) (loc : Span) :
    let r := (define space occ loc).run d
    let n := topName m.name space occ
    (r.1 = none ∧ r.2.Tidy m bare start ∧ ∃ x ∈ r.2.reports, x.isError = true) ∨
      r.1 = some n ∧ r.2.Tidy m (fun n' => bare n' ∨ n' = n) start ∧
        r.2.places.get? (space, occ) = some loc := by
  intro r n
  cases hp : d.places.get? (space, occ) with
  | some previous =>
    have hr : r = (none, _) := run_define_of_some hp
    rw [hr]
    exact .inl ⟨rfl, hd.report _, _, List.mem_cons_self .., rfl⟩
  | none =>
    have hr : r = (some _, _) := run_define_of_none hp
    rw [hr, hd.module]
    exact .inr ⟨rfl, hd.declare loc hp, Table.get?_put_self ..⟩

/-- What a name denotes is added once it is declared. -/
theorem preserves_define {α : Type} {space : Namespace} {occ : String} {loc : Span}
    {e : Name → Entity} {f : Option Name → DeclareM α}
    (he : (e (topName m.name space occ)).name = topName m.name space occ ∧
      (e (topName m.name space occ)).Named)
    (hnone : Preserves (·.Tidy m bare start) (f none) fun _ => True)
    (hsome : ∀ n, ∃ g : DeclareM α, f (some n) = (do addEntity (e n); g) ∧
      Preserves (·.Tidy m bare start) g fun _ => True) :
    Preserves (·.Tidy m bare start) (define space occ loc >>= f) fun _ => True := by
  intro d hd
  rw [StateT.run_bind]
  have hdefine := tidy_define hd space occ loc
  generalize (define space occ loc).run d = r at hdefine
  obtain ⟨n, d'⟩ := r
  rcases hdefine with ⟨rfl, hd', -⟩ | ⟨rfl, hd', -⟩
  · exact hnone d' hd'
  · obtain ⟨g, hf, hg⟩ := hsome (topName m.name space occ)
    change Declaring.Tidy m bare ((f (some (topName m.name space occ))).run d').2 start ∧ True
    rw [hf]
    refine hg _ ((hd'.addEntity he.2).mono fun n h => .inr ?_)
    rw [he.1] at h
    exact h.1.resolve_right h.2

-- Types and classes

theorem preserves_typeName (decl : Surface.Decl) :
    Preserves (·.Tidy m bare start) (typeName decl) fun _ => True := by
  have htype {n : Name} (hn : n.space = .type) (hspace : n.space = .value) : False := by
    rw [hn] at hspace
    cases hspace
  cases decl with
  | data d =>
    refine preserves_define (e := fun n => .tyCon ⟨n, d.nameLoc, d.tyvars, []⟩) ?_ (.pure trivial)
      fun n => ⟨pure ⟨⟩, rfl, .pure trivial⟩
    exact ⟨rfl, not_isLocal_topName, fun h => (htype rfl h).elim⟩
  | cls c =>
    refine preserves_define (e := fun n => .typeClass ⟨n, c.nameLoc, c.tyvar, []⟩) ?_
      (.pure trivial) fun n => ⟨pure ⟨⟩, rfl, .pure trivial⟩
    exact ⟨rfl, not_isLocal_topName, fun h => (htype rfl h).elim⟩
  | _ => exact .pure trivial

-- Values

/-- A type or a class that a name denotes has that name. -/
theorem named_of_entity? (hd : d.Tidy m bare start) {n : Name} {e : Entity}
    (h : d.globals.entity? n = some e) : n = e.name ∧ e.Named :=
  hd.globals.entities _ (Table.mem_of_get? h)

theorem named_of_type {e : Entity} {occ : String} (h : topName m.name .type occ = e.name) :
    e.Named := by
  refine ⟨h ▸ not_isLocal_topName, fun hspace => ?_⟩
  rw [← h] at hspace
  cases hspace

theorem named_of_value {e : Entity} {occ : String} (h : e.name = topName m.name .value occ)
    (he : e.isValue = true) : e.Named := ⟨h ▸ not_isLocal_topName, fun _ => he⟩

theorem preserves_dataCon (decl : Surface.DataDecl) (parent : Name) (c : Surface.ConDecl) :
    Preserves (·.Tidy m bare start) (dataCon decl parent c) fun _ => True := by
  refine .bind (preserves_typesOf reportable_tidy _ _) fun args _ => ?_
  let con (n : Name) : DataCon := ⟨n, c.loc, parent, ⟨decl.tyvars, [],
    Ty.fns args (.conApp parent (decl.tyvars.map .var))⟩, args⟩
  exact preserves_define (e := fun n => .dataCon (con n)) ⟨rfl, named_of_value rfl rfl⟩
    (.pure trivial) fun n => ⟨_, rfl, .pure trivial⟩

theorem preserves_dataCons (decl : Surface.DataDecl) :
    Preserves (·.Tidy m bare start) (dataCons decl) fun _ => True := by
  unfold dataCons
  refine .bind .get fun s hs => ?_
  dsimp only
  split
  · next t ht =>
    split
    · refine .bind (.mapM fun c _ => preserves_dataCon _ _ c) fun cons _ => ?_
      rw [hs.module] at ht
      exact preserves_addEntity (named_of_type (named_of_entity? hs ht).1)
    · exact .pure trivial
  · exact .pure trivial

theorem preserves_methodSig (c : Surface.ClassDecl) (cls : Name) (sig : Surface.TypeSig) :
    Preserves (·.Tidy m bare start) (methodSig c cls sig) fun _ => True := by
  have hmethod (s : Scheme) (name : String × Span) :
      Preserves (·.Tidy m bare start) (method cls s name) fun _ => True :=
    preserves_define (e := fun n => .ident ⟨n, name.2, s, some cls⟩) ⟨rfl, named_of_value rfl rfl⟩
      (.pure trivial) fun n => ⟨_, rfl, .pure trivial⟩
  have hI : Reportable (·.Tidy m bare start) := reportable_tidy
  refine preserves_reporting hI rfl (.bind (preserves_typeOf hI none sig.ty.body) fun _ _ => ?_)
  refine preserves_reporting hI rfl ?_
  exact .bind (.mapM fun name _ => hmethod _ name) fun _ _ => .pure trivial

theorem preserves_classMethods (c : Surface.ClassDecl) :
    Preserves (·.Tidy m bare start) (classMethods c) fun _ => True := by
  unfold classMethods
  refine .bind .get fun s hs => ?_
  dsimp only
  split
  · next t ht =>
    split
    · refine .bind (.mapM fun sig _ => preserves_methodSig c _ sig) fun ms _ => ?_
      rw [hs.module] at ht
      exact preserves_addEntity (named_of_type (named_of_entity? hs ht).1)
    · exact .pure trivial
  · exact .pure trivial

theorem preserves_primitive (p : Surface.PrimDecl) :
    Preserves (·.Tidy m bare start) (primitive p) fun _ => True := by
  refine .bind (preserves_schemeOf reportable_tidy _) fun s _ => .forM fun name _ => ?_
  exact preserves_define (e := fun n => .ident ⟨n, name.2, s, none⟩) ⟨rfl, named_of_value rfl rfl⟩
    (.pure trivial) fun n => ⟨pure ⟨⟩, rfl, .pure trivial⟩

theorem preserves_binder {occ : String} {loc : Span} (hbare : bare (topName m.name .value occ)) :
    Preserves (·.Tidy m bare start) (do let _ ← define .value occ loc) fun _ => True := by
  intro d hd
  refine ⟨?_, trivial⟩
  rcases tidy_define hd .value occ loc with ⟨-, hd', -⟩ | ⟨-, hd', -⟩
  · exact hd'
  · exact hd'.mono fun n h => .inr (h.elim id fun h => h ▸ hbare)

theorem preserves_valueNames {decl : Surface.Decl} (hm : decl ∈ m.decls) :
    Preserves (·.Tidy m (Defines m) start) (valueNames decl) fun _ => True := by
  cases decl with
  | data d => exact preserves_dataCons d
  | cls c => exact preserves_classMethods c
  | prim p => exact preserves_primitive p
  | bind b =>
    exact .forM fun y hy => preserves_binder ⟨b, mem_bindings.2 hm, y, hy, rfl⟩
  | sig | fixity | inst => exact .pure trivial

-- Signatures, instances and fixities

theorem preserves_signature (decl : Surface.Decl) :
    Preserves (·.Tidy m bare start) (signature m decl) fun _ => True := by
  cases decl with
  | sig d =>
    refine .bind (preserves_schemeOf reportable_tidy _) fun scheme _ => .forM fun name _ d hd => ?_
    simp only [StateT.run_bind, StateT.run_get, pure_bind]
    split
    · exact ⟨hd.report _, trivial⟩
    · have hname := congrArg (topName · .value name.1) hd.module
      exact ⟨hd.sign scheme hname (named_of_value hname rfl), trivial⟩
  | _ => exact .pure trivial

theorem preserves_instancesAndFixities (decls : List Surface.Decl) :
    Preserves (·.Tidy m bare start) (instancesAndFixities decls) fun _ => True := by
  have hinst (decl : Surface.InstanceDecl) := preserves_inst_of reportable_tidy
    (fun d i (hd : d.Tidy m bare start) _ hname _ => by
      have htop : ¬ i.name.IsLocal := hname ▸ not_isLocal_topName
      exact { hd with
        globals := hd.globals.addInstance htop
        exports := hd.exports.addInstance htop }) decl
  have hfixity (decl : Surface.FixityDecl) := preserves_fixity_of reportable_tidy
    (fun d _ _ (hd : d.Tidy m bare start) _ _ => { hd with
      globals := ⟨hd.globals.entities, hd.globals.instances, hd.globals.scope⟩
      exports := ⟨hd.exports.entities, hd.exports.instances⟩ }) decl
  exact (preserves_instancesAndFixities_of hinst hfixity decls).weaken fun _ _ => trivial

theorem preserves_listEntities (hs : start.places = []) :
    Preserves (·.Tidy m bare start) (listEntities.forM wireIn) fun _ => True := by
  have hlocal : ∀ e ∈ listEntities, e.name.unique = 0 := by decide
  have hvalue : ∀ e ∈ listEntities, e.name.space = .value → e.isValue = true := by decide
  refine .forM fun e he => .bind (.modify fun d hd => ?_) fun _ _ =>
    preserves_addEntity ⟨fun h => h (hlocal e he), hvalue e he⟩
  exact { hd with
    places := fun k l h => by
      rw [hs] at h
      cases h }

-- Places

/-- In declarations that are accepted, what each of them brings about holds in the end if the others
keep it. -/
theorem holds_of_accepted {α : Type} {f : α → DeclareM PUnit} {P : α → Declaring → Prop}
    {as : List α} (hf : ∀ a ∈ as, ∀ start, Preserves (·.Tidy m bare start) (f a) fun _ => True)
    (hP : ∀ a d d', d'.Tidy m bare d → P a d → P a d')
    (hstep : ∀ a ∈ as, ∀ d, d.Tidy m bare d →
      (∀ r ∈ ((f a).run d).2.reports, r.isError = false) → P a ((f a).run d).2)
    (hd : d.Tidy m bare start)
    (hok : ∀ r ∈ ((as.forM f).run d).2.reports, r.isError = false) :
    ∀ a ∈ as, P a ((as.forM f).run d).2 := by
  induction as generalizing d start with
  | nil => simp
  | cons a as ih =>
    obtain ⟨hfa, hfas⟩ := List.forall_mem_cons.1 hf
    obtain ⟨hstepa, hsteps⟩ := List.forall_mem_cons.1 hstep
    let d₁ := ((f a).run d).2
    have hd₁ : d₁.Tidy m bare d := (hfa d d hd.restart).1
    have hd' : ((as.forM f).run d₁).2.Tidy m bare d₁ :=
      (Preserves.forM (fun a ha => hfas a ha d₁) d₁ hd₁.restart).1
    refine List.forall_mem_cons.2 ⟨?_, ih hfas hsteps hd₁ hok⟩
    exact hP a _ _ hd' (hstepa d hd.restart fun r hr => hok r (hd'.reports hr))

/-- Binders have the places of their declarations. -/
theorem placed_valueNames (hd : d.Tidy m (Defines m) start)
    (hok : ∀ r ∈ ((m.decls.forM valueNames).run d).2.reports, r.isError = false) :
    ∀ b ∈ m.bindings, ∀ y ∈ b.binders,
      ((m.decls.forM valueNames).run d).2.places.get? (.value, y.1) = some y.2 := by
  let Placed (y : String × Span) (d : Declaring) : Prop := d.places.get? (.value, y.1) = some y.2
  have hbinder : ∀ y d, (∃ b ∈ m.bindings, y ∈ b.binders) → d.Tidy m (Defines m) d →
      let d' := ((do let _ ← define .value y.1 y.2 : DeclareM PUnit).run d).2
      (∀ r ∈ d'.reports, r.isError = false) → Placed y d' := by
    intro y d _ hd d' hok
    rcases tidy_define hd .value y.1 y.2 with ⟨-, -, r, hr, herror⟩ | ⟨-, -, hplaced⟩
    · rw [hok r hr] at herror
      cases herror
    · exact hplaced
  let AllPlaced (decl : Surface.Decl) (d : Declaring) : Prop :=
    ∀ b, decl = .bind b → ∀ y ∈ b.binders, Placed y d
  intro b hb
  refine holds_of_accepted (P := AllPlaced)
    (fun decl hdecl _ => preserves_valueNames hdecl)
    (fun decl d d' hd h b heq y hy => hd.places _ _ (h b heq y hy))
    (fun decl hdecl d hd hok b hb => ?_) hd hok (.bind b) (mem_bindings.1 hb) b rfl
  subst hb
  have hb := mem_bindings.2 hdecl
  exact holds_of_accepted (P := Placed)
    (fun y hy _ => preserves_binder ⟨b, hb, y, hy, rfl⟩) (fun y d d' hd h => hd.places _ _ h)
    (fun y hy d hd => hbinder y d ⟨b, hb, hy⟩ hd) hd hok

end Declare

-- Modules

theorem tidy_initial {imports : List Exports} (hi : ∀ x ∈ imports, x.Named) :
    (Declaring.initial m imports).Tidy m (Defines m) (.initial m imports) := by
  have himports {xs : List Exports} (hxs : ∀ x ∈ xs, x.Named) {g : Globals}
      (hg : g.Named (Defines m)) : (xs.foldl Globals.importAll g).Named (Defines m) := by
    induction xs generalizing g with
    | nil => exact hg
    | cons x xs ih =>
      obtain ⟨hx, hxs⟩ := List.forall_mem_cons.1 hxs
      exact ih hxs (Globals.named_importAll hg hx)
  exact {
    module := module_initial
    globals := himports hi ⟨fun _ h => absurd h List.not_mem_nil,
      fun _ h => absurd h List.not_mem_nil, fun _ _ h => absurd h List.not_mem_nil⟩
    exports := ⟨fun _ h => absurd h List.not_mem_nil, fun _ h => absurd h List.not_mem_nil⟩
    signatures := fun _ h => by cases h
    places := fun _ _ h => h
    reports := fun _ h => h }

/-- The names of values are declared after those of types, and before all else. -/
theorem exists_valueNames {imports : List Exports} (hi : ∀ x ∈ imports, x.Named) :
    ∃ d : Declaring, d.Tidy m (Defines m) (.initial m imports) ∧
      (declared m imports).2.Tidy m (Defines m) ((m.decls.forM Declare.valueNames).run d).2 := by
  let wiring : DeclareM Unit :=
    if m.name = preludeModule then Declare.listEntities.forM Declare.wireIn else pure ()
  let types : DeclareM Unit := do wiring; m.decls.forM Declare.typeName
  let signing : DeclareM (List (Instance × Surface.InstanceDecl)) := do
    m.decls.forM (Declare.signature m)
    Declare.instancesAndFixities m.decls
  have hall : Declare.all m = (do types; m.decls.forM Declare.valueNames; signing) := by
    unfold Declare.all
    simp only [types, wiring]
    split
    · rfl
    · rfl
  have htypes : Preserves (·.Tidy m (Defines m) (.initial m imports)) types fun _ => True := by
    refine .bind (P := fun _ => True) ?_ fun _ _ => .forM fun decl _ =>
      Declare.preserves_typeName decl
    simp only [wiring]
    split
    · exact Declare.preserves_listEntities rfl
    · exact .pure trivial
  refine ⟨(types.run (.initial m imports)).2, (htypes _ (tidy_initial hi)).1, ?_⟩
  let d := ((m.decls.forM Declare.valueNames).run (types.run (.initial m imports)).2).2
  have hd : d.Tidy m (Defines m) (types.run (.initial m imports)).2 :=
    (Preserves.forM (fun _ h => Declare.preserves_valueNames h) _
      (htypes _ (tidy_initial hi)).1.restart).1
  have hsigning : Preserves (·.Tidy m (Defines m) d) signing fun _ => True :=
    .bind (.forM fun decl _ => Declare.preserves_signature decl) fun _ _ =>
      Declare.preserves_instancesAndFixities m.decls
  rw [declared, hall]
  exact (hsigning d hd.restart).1

/-- Once all is declared, only bindings have names that denote nothing. If the declarations are
accepted, binders have the places of their declarations. -/
theorem tidy_declared {imports : List Exports} (hi : ∀ x ∈ imports, x.Named) :
    (declared m imports).2.Tidy m (Defines m) (.initial m imports) ∧
      ((∀ r ∈ (declared m imports).2.reports, r.isError = false) →
        ∀ b ∈ m.bindings, ∀ y ∈ b.binders,
          (declared m imports).2.places.get? (.value, y.1) = some y.2) := by
  obtain ⟨d, hd, hdeclared⟩ := exists_valueNames (m := m) hi
  have hvalues : ((m.decls.forM Declare.valueNames).run d).2.Tidy m (Defines m) d :=
    (Preserves.forM (fun _ h => Declare.preserves_valueNames h) d hd.restart).1
  refine ⟨(hdeclared.trans hvalues).trans hd, fun hok b hb y hy => hdeclared.places _ _ ?_⟩
  exact Declare.placed_valueNames hd (fun r hr => hok r (hdeclared.reports hr)) b hb y hy

end TypeLens.Check
