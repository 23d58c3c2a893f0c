import TypeLens.Proofs.Checking.Evolution

/-!
Classes and instances are well-formed in every module whose declarations are accepted: methods
quantify the variable of their class first, and contexts of instances are on variables of the head.
-/

namespace TypeLens

/-- The variable of the class comes first, and the others are those of the type. -/
def Scheme.OfMethod (tyvar : String) (s : Scheme) : Prop :=
  s.tvs = tyvar :: s.body.freeVars.filter (· ≠ tyvar)

namespace Scheme.OfMethod

variable {tyvar : String} {s : Scheme}

theorem nodup_tail (hs : s.OfMethod tyvar) : s.tvs.tail.Nodup := by
  rw [hs]
  exact (Check.nodup_eraseDups _).filter _

theorem mem_tail_iff (hs : s.OfMethod tyvar) {v : String} :
    v ∈ s.tvs.tail ↔ v ∈ s.body.freeVars ∧ v ≠ tyvar := by
  rw [hs]
  simp

end Scheme.OfMethod

/-- Types of methods are written types; their schemes are those of methods if `once` holds. -/
def Entity.WellFormed (once : Prop) : Entity → Prop
  | .typeClass c => ∀ x ∈ c.methods,
      x.scheme.body.uvarOccurrences = [] ∧ (once → x.scheme.OfMethod c.tyvar)
  | _ => True

structure Instance.WellFormed (i : Instance) : Prop where
  nodup : i.tyvars.Nodup
  context : ∀ p ∈ i.context, ∃ v ∈ i.tyvars, p.arg = .var v

structure Exports.WellFormed (once : Prop) (x : Exports) : Prop where
  entities : ∀ p ∈ x.entities, p.2.WellFormed once
  instances : ∀ i ∈ x.instances, i.WellFormed

structure Globals.WellFormed (once : Prop) (g : Globals) : Prop where
  entities : ∀ p ∈ g.entities, p.1 = p.2.name ∧ p.2.WellFormed once
  instances : ∀ i ∈ g.instances, i.WellFormed

theorem Entity.WellFormed.mono {once once' : Prop} (h : once' → once) {e : Entity}
    (he : e.WellFormed once) : e.WellFormed once' := by
  cases e with
  | typeClass c => exact fun x hx => ⟨(he x hx).1, fun ho => (he x hx).2 (h ho)⟩
  | _ => trivial

namespace Exports.WellFormed

variable {once once' : Prop} {x : Exports}

theorem mono (h : once' → once) (hx : x.WellFormed once) : x.WellFormed once' :=
  ⟨fun p hp => (hx.entities p hp).mono h, hx.instances⟩

theorem addEntity (hx : x.WellFormed once) {e : Entity} (he : e.WellFormed once) :
    (x.addEntity e).WellFormed once :=
  ⟨Table.forall_mem_put hx.entities he, hx.instances⟩

theorem addInstance (hx : x.WellFormed once) {i : Instance} (hi : i.WellFormed) :
    (x.addInstance i).WellFormed once :=
  ⟨hx.entities, List.forall_mem_append.2 ⟨hx.instances, List.forall_mem_singleton.2 hi⟩⟩

end Exports.WellFormed

namespace Globals

variable {once : Prop} {g : Globals}

theorem WellFormed.of_entity? (hg : g.WellFormed once) {n : Name} {e : Entity}
    (h : g.entity? n = some e) : n = e.name ∧ e.WellFormed once :=
  hg.entities _ (Table.mem_of_get? h)

theorem WellFormed.addEntity (hg : g.WellFormed once) {e : Entity} (he : e.WellFormed once) :
    (g.addEntity e).WellFormed once :=
  ⟨Table.forall_mem_put hg.entities ⟨rfl, he⟩, hg.instances⟩

theorem WellFormed.addInstance (hg : g.WellFormed once) {i : Instance} (hi : i.WellFormed) :
    (g.addInstance i).WellFormed once :=
  ⟨hg.entities, List.forall_mem_append.2 ⟨hg.instances, List.forall_mem_singleton.2 hi⟩⟩

theorem module_importInstance (g : Globals) (i : Instance) :
    (g.importInstance i).module = g.module := by
  unfold importInstance
  split
  · rfl
  · rfl

theorem WellFormed.importInstance (hg : g.WellFormed once) {i : Instance} (hi : i.WellFormed) :
    (g.importInstance i).WellFormed once := by
  unfold Globals.importInstance
  split
  · exact hg
  · exact hg.addInstance hi

theorem module_importAll (g : Globals) (x : Exports) : (g.importAll x).module = g.module := by
  have hentities (es : List Entity) (g : Globals) :
      (es.foldl Globals.addEntity g).module = g.module := by
    induction es generalizing g with
    | nil => rfl
    | cons e es ih => exact ih (g.addEntity e)
  have hinstances (is : List Instance) (g : Globals) :
      (is.foldl Globals.importInstance g).module = g.module := by
    induction is generalizing g with
    | nil => rfl
    | cons i is ih => exact (ih (g.importInstance i)).trans (module_importInstance g i)
  exact (hinstances _ _).trans (hentities _ _)

theorem WellFormed.importAll {x : Exports} (hg : g.WellFormed once) (hx : x.WellFormed once) :
    (g.importAll x).WellFormed once := by
  have hentities {es : List Entity} (hes : ∀ e ∈ es, e.WellFormed once) {g : Globals}
      (hg : g.WellFormed once) : (es.foldl Globals.addEntity g).WellFormed once := by
    induction es generalizing g with
    | nil => exact hg
    | cons e es ih =>
      obtain ⟨he, hes⟩ := List.forall_mem_cons.1 hes
      exact ih hes (hg.addEntity he)
  have hinstances {is : List Instance} (his : ∀ i ∈ is, i.WellFormed) {g : Globals}
      (hg : g.WellFormed once) : (is.foldl Globals.importInstance g).WellFormed once := by
    induction is generalizing g with
    | nil => exact hg
    | cons i is ih =>
      obtain ⟨hi, his⟩ := List.forall_mem_cons.1 his
      exact ih his (hg.importInstance hi)
  have hvalues : ∀ e ∈ x.entities.values, e.WellFormed once := by
    intro e he
    obtain ⟨p, hp, rfl⟩ := List.mem_map.1 he
    exact hx.entities p hp
  have hwf := hentities hvalues hg
  exact hinstances hx.instances (g := { x.entities.values.foldl Globals.addEntity g with
    fixities := (x.entities.values.foldl Globals.addEntity g).fixities.putAll x.fixities })
    ⟨hwf.entities, hwf.instances⟩

end Globals

namespace Check

/-- Class declarations of one name are one declaration. -/
def ClassesOnce (m : Surface.Module) : Prop :=
  ∀ c c', .cls c ∈ m.decls → .cls c' ∈ m.decls → c.name = c'.name → c = c'

/-- The class is one that the module declares. -/
def DeclaresClass (m : Surface.Module) (t : TypeClass) : Prop :=
  ∃ c, .cls c ∈ m.decls ∧ t.name = topName m.name .type c.name ∧ t.tyvar = c.tyvar

/-- A value of the module denotes a constructor. -/
def Declaring.Constructs (m : Surface.Module) (d : Declaring) (occ : String) : Prop :=
  ∃ c, d.globals.entity? (topName m.name .value occ) = some (.dataCon c)

/-- What has been declared of a module since `start`. -/
structure Declaring.Sound (m : Surface.Module) (d start : Declaring) : Prop where
  module : d.globals.module = m.name
  globals : d.globals.WellFormed (ClassesOnce m)
  exports : d.exports.WellFormed (ClassesOnce m)
  signatures : ∀ p ∈ d.signatures, p.2.body.uvarOccurrences = []
  /-- A name that is imported may still denote a class of another module with this one's name. -/
  classes : ∀ occ t, d.places.contains (.type, occ) = true →
    d.globals.entity? (topName m.name .type occ) = some (.typeClass t) → DeclaresClass m t
  /-- What denotes a constructor did so at the start or was declared since. -/
  constructors : ∀ occ, d.Constructs m occ → start.Constructs m occ ∨
    d.places.contains (.value, occ) = true ∧ start.places.contains (.value, occ) = false
  places : ∀ k, start.places.contains k = true → d.places.contains k = true
  reports : start.reports ⊆ d.reports
  constraints : ∀ r ∈ d.reports, r.problem.constraint? = none

variable {m : Surface.Module} {start d : Declaring}

namespace Declaring.Sound

theorem restart (hd : d.Sound m start) : d.Sound m d :=
  { hd with constructors := fun _ h => .inl h, places := fun _ h => h, reports := fun _ h => h }

theorem trans {start' : Declaring} (hd : d.Sound m start) (hs : start.Sound m start') :
    d.Sound m start' :=
  { hd with
    constructors := fun occ h => by
      rcases hd.constructors occ h with h | ⟨hpl, hno⟩
      · exact (hs.constructors occ h).imp_right fun h => ⟨hd.places _ h.1, h.2⟩
      · refine .inr ⟨hpl, Bool.eq_false_iff.2 fun h => ?_⟩
        rw [hs.places _ h] at hno
        cases hno
    places := fun k hk => hd.places k (hs.places k hk)
    reports := fun _ hr => hd.reports (hs.reports hr) }

/-- What has a place denotes a constructor later only if it does so already. -/
theorem constructs (hd : d.Sound m start) {occ : String}
    (hpl : start.places.contains (.value, occ) = true) (h : d.Constructs m occ) :
    start.Constructs m occ :=
  (hd.constructors occ h).resolve_right fun h => by
    rw [hpl] at h
    cases h.2

/-- What has no place has had none. -/
theorem new (hd : d.Sound m start) {k : Namespace × String} (h : d.places.contains k = false) :
    start.places.contains k = false := by
  refine Bool.eq_false_iff.2 fun hk => ?_
  rw [hd.places k hk] at h
  cases h

theorem report (hd : d.Sound m start) {r : Report} (hr : r.problem.constraint? = none) :
    { d with reports := r :: d.reports }.Sound m start :=
  { hd with
    reports := fun _ h => List.mem_cons_of_mem _ (hd.reports h)
    constraints := List.forall_mem_cons.2 ⟨hr, hd.constraints⟩ }

theorem scope (hd : d.Sound m start) (x : Declared) :
    { d with globals := { d.globals with scope := d.globals.scope.add x } }.Sound m start :=
  { hd with globals := ⟨hd.globals.entities, hd.globals.instances⟩ }

theorem addEntity (hd : d.Sound m start) {e : Entity} (he : e.WellFormed (ClassesOnce m))
    (hc : ∀ t, e = .typeClass t → DeclaresClass m t)
    (hk : ∀ c occ, e = .dataCon c → c.name = topName m.name .value occ →
      d.places.contains (.value, occ) = true ∧ start.places.contains (.value, occ) = false) :
    { d with globals := d.globals.addEntity e, exports := d.exports.addEntity e }.Sound m
      start where
  module := hd.module
  globals := hd.globals.addEntity he
  exports := hd.exports.addEntity he
  signatures := hd.signatures
  classes occ t hpl ht := by
    have hput : (d.globals.entities.put e.name e).get? (topName m.name .type occ) =
      some (.typeClass t) := ht
    rw [Table.get?_put] at hput
    split at hput
    · exact hc t (Option.some.inj hput)
    · exact hd.classes occ t hpl hput
  constructors occ h := by
    obtain ⟨c, hc⟩ := h
    have hput : (d.globals.entities.put e.name e).get? (topName m.name .value occ) =
      some (.dataCon c) := hc
    rw [Table.get?_put] at hput
    split at hput
    · next hname =>
      obtain rfl := Option.some.inj hput
      exact .inr (hk c occ rfl hname)
    · exact hd.constructors occ ⟨c, hput⟩
  places := hd.places
  reports := hd.reports
  constraints := hd.constraints

theorem place (hd : d.Sound m start) (k : Namespace × String) (loc : Span)
    (hk : ∀ occ t, k = (.type, occ) →
      d.globals.entity? (topName m.name .type occ) = some (.typeClass t) → DeclaresClass m t) :
    { d with places := d.places.put k loc }.Sound m start where
  module := hd.module
  globals := hd.globals
  exports := hd.exports
  signatures := hd.signatures
  classes occ t hpl ht := by
    rcases Table.contains_put.1 hpl with h | h
    · exact hk occ t h ht
    · exact hd.classes occ t h ht
  constructors occ h := (hd.constructors occ h).imp_right fun h =>
    ⟨Table.contains_put.2 (.inr h.1), h.2⟩
  places k' h := Table.contains_put.2 (.inr (hd.places k' h))
  reports := hd.reports
  constraints := hd.constraints

theorem addInstance (hd : d.Sound m start) {i : Instance} (hi : i.WellFormed) :
    { d with globals := d.globals.addInstance i, exports := d.exports.addInstance i }.Sound
      m start :=
  { hd with
    globals := hd.globals.addInstance hi
    exports := hd.exports.addInstance hi }

theorem addFixity (hd : d.Sound m start) (n : Name) (f : Fixity) :
    { d with globals := d.globals.addFixity n f, exports := d.exports.addFixity n f }.Sound
      m start :=
  { hd with
    globals := ⟨hd.globals.entities, hd.globals.instances⟩
    exports := ⟨hd.exports.entities, hd.exports.instances⟩ }

theorem putSignature (hd : d.Sound m start) (occ : String) {s : Scheme}
    (hs : s.body.uvarOccurrences = []) :
    { d with signatures := d.signatures.put occ s }.Sound m start :=
  { hd with signatures := Table.forall_mem_put hd.signatures hs }

end Declaring.Sound

/-- An action that keeps an invariant of declarations and returns something with a property. -/
def Preserves (I : Declaring → Prop) {α : Type} (act : DeclareM α) (Q : α → Prop) : Prop :=
  ∀ d : Declaring, I d → I (act.run d).2 ∧ Q (act.run d).1

/-- An action that keeps declarations sound and returns something with a property. -/
abbrev Keeps (m : Surface.Module) (start : Declaring) {α : Type} (act : DeclareM α)
    (Q : α → Prop) : Prop :=
  Preserves (·.Sound m start) act Q

/-- An invariant of which reports that are not on constraints are no part. -/
def Reportable (I : Declaring → Prop) : Prop :=
  ∀ d r, r.problem.constraint? = none → I d → I { d with reports := r :: d.reports }

theorem reportable_sound : Reportable (·.Sound m start) := fun _ _ hr hd => hd.report hr

variable {I : Declaring → Prop}

namespace Preserves

variable {α β : Type} {act : DeclareM α} {P : α → Prop} {Q : β → Prop}

theorem pure {a : α} (h : P a) : Preserves I (Pure.pure a) P := fun _ hd => ⟨hd, h⟩

theorem bind {f : α → DeclareM β} (h : Preserves I act P)
    (hf : ∀ a, P a → Preserves I (f a) Q) : Preserves I (act >>= f) Q := fun d hd => by
  obtain ⟨hd', ha⟩ := h d hd
  exact hf _ ha _ hd'

theorem weaken {R : α → Prop} (h : Preserves I act P) (hR : ∀ a, P a → R a) :
    Preserves I act R := fun d hd => ⟨(h d hd).1, hR _ (h d hd).2⟩

theorem get : Preserves I (MonadState.get : DeclareM Declaring) I :=
  fun _ hd => ⟨hd, hd⟩

theorem set (h : I d) :
    Preserves I (MonadStateOf.set d : DeclareM PUnit) fun _ => True := fun _ _ => ⟨h, trivial⟩

theorem modify {f : Declaring → Declaring} (h : ∀ d, I d → I (f d)) :
    Preserves I (modify f) fun _ => True := fun d hd => ⟨h d hd, trivial⟩

theorem mapM {f : α → DeclareM β} {as : List α} (h : ∀ a ∈ as, Preserves I (f a) Q) :
    Preserves I (as.mapM f) fun bs => ∀ b ∈ bs, Q b := by
  induction as with
  | nil => exact .pure (by simp)
  | cons a as ih =>
    rw [List.mapM_cons]
    refine .bind (h a (List.mem_cons_self ..)) fun b hb => ?_
    exact .bind (ih fun a' ha' => h a' (List.mem_cons_of_mem _ ha')) fun bs hbs =>
      .pure (List.forall_mem_cons.2 ⟨hb, hbs⟩)

theorem forM {f : α → DeclareM PUnit} {as : List α}
    (h : ∀ a ∈ as, Preserves I (f a) fun _ => True) :
    Preserves I (as.forM f) fun _ => True := by
  induction as with
  | nil => exact .pure trivial
  | cons a as ih =>
    exact .bind (h a (List.mem_cons_self ..)) fun _ _ =>
      ih fun a' ha' => h a' (List.mem_cons_of_mem _ ha')

end Preserves

namespace Declare

theorem preserves_report (hI : Reportable I) {p : Problem} (hp : p.constraint? = none)
    (loc : Span) : Preserves I (report p loc) fun _ => True :=
  .modify fun _ hd => hI _ _ hp hd

theorem keeps_addEntity {e : Entity} (he : e.WellFormed (ClassesOnce m))
    (hc : ∀ t, e = .typeClass t → DeclaresClass m t) (hk : ∀ c, e ≠ .dataCon c) :
    Keeps m start (addEntity e) fun _ => True :=
  .modify fun _ hd => hd.addEntity he hc fun c _ h => absurd h (hk c)

theorem keeps_addIdent (i : Identifier) :
    Keeps m start (addEntity (.ident i)) fun _ => True :=
  keeps_addEntity trivial (fun _ h => by cases h) fun _ h => by cases h

theorem run_define_of_some {space : Namespace} {occ : String} {loc previous : Span}
    (h : d.places.get? (space, occ) = some previous) :
    (define space occ loc).run d =
      (none, { d with reports := ⟨.declaredTwice occ previous, loc⟩ :: d.reports }) := by
  simp only [define, StateT.run_bind, StateT.run_get, pure_bind, h]
  rfl

theorem run_define_of_none {space : Namespace} {occ : String} {loc : Span}
    (h : d.places.get? (space, occ) = none) :
    (define space occ loc).run d =
      (some (topName d.globals.module space occ), { d with
        places := d.places.put (space, occ) loc
        globals := { d.globals with
          scope := d.globals.scope.add ⟨topName d.globals.module space occ, loc⟩ } }) := by
  simp only [define, StateT.run_bind, StateT.run_get, pure_bind, h]
  rfl

/-- A name that is given to a value has a place from then on and had none before. -/
theorem sound_define_value (hd : d.Sound m start) (occ : String) (loc : Span) :
    let r := (define .value occ loc).run d
    r.2.Sound m start ∧ ∀ n, r.1 = some n → n = topName m.name .value occ ∧
      r.2.places.contains (.value, occ) = true ∧ start.places.contains (.value, occ) = false := by
  intro r
  cases hp : d.places.get? (.value, occ) with
  | some previous =>
    have hr : r = (none, _) := run_define_of_some hp
    rw [hr]
    exact ⟨hd.report rfl, fun n h => by cases h⟩
  | none =>
    have hr : r = (some _, _) := run_define_of_none hp
    rw [hr, hd.module]
    refine ⟨(hd.scope _).place (.value, occ) loc (fun _ _ h => by cases h), fun n hn => ?_⟩
    refine ⟨(Option.some.inj hn).symm, Table.contains_put.2 (.inl rfl), ?_⟩
    refine Bool.eq_false_iff.2 fun h => ?_
    have hpl := hd.places _ h
    rw [Table.contains, hp] at hpl
    cases hpl

theorem keeps_define_value (occ : String) (loc : Span) :
    Keeps m start (define .value occ loc) fun _ => True :=
  fun _ hd => ⟨(sound_define_value hd occ loc).1, trivial⟩

theorem preserves_reporting (hI : Reportable I) {α : Type} {c : Prop} [Decidable c] {p : Problem}
    {loc : Span} {act : DeclareM α} {Q : α → Prop} (hp : p.constraint? = none)
    (h : Preserves I act Q) : Preserves I (if c then do report p loc; act else act) Q := by
  split
  · exact .bind (preserves_report hI hp loc) fun _ _ => h
  · exact h

-- Types

theorem constraint?_of_arityProblem? {occ : String} {given : Nat} {e : Option Entity} {p : Problem}
    (h : arityProblem? occ given e = some p) : p.constraint? = none := by
  unfold arityProblem? at h
  split at h
  · cases h
    rfl
  · split at h
    · cases h
      rfl
    · split at h <;> cases h
      rfl
  · cases h

mutual

theorem preserves_typeOf (hI : Reportable I) (tyvars : Option (List String)) :
    ∀ t : Surface.TypeExpr, Preserves I (typeOf tyvars t) (·.uvarOccurrences = [])
  | .var v l => by
    unfold typeOf
    exact preserves_reporting hI rfl (.pure rfl)
  | .fn t u l => by
    unfold typeOf
    refine .bind (preserves_typeOf hI tyvars t) fun t' ht => ?_
    refine .bind (preserves_typeOf hI tyvars u) fun u' hu => .pure ?_
    simp [Ty.fn, Ty.uvarOccurrences, ht, hu]
  | .con c ts l => by
    unfold typeOf
    refine .bind (preserves_typesOf hI tyvars ts) fun args hargs => ?_
    split
    · exact .pure (Ty.uvarOccurrences_conApp hargs)
    refine .bind .get fun s _ => ?_
    dsimp only
    split
    · next he =>
      exact .bind (preserves_report hI (constraint?_of_resolve he) _) fun _ _ =>
        .pure (Ty.uvarOccurrences_conApp hargs)
    split
    · next hp =>
      exact .bind (preserves_report hI (constraint?_of_arityProblem? hp) _) fun _ _ =>
        .pure (Ty.uvarOccurrences_conApp hargs)
    · exact .pure (Ty.uvarOccurrences_conApp hargs)

theorem preserves_typesOf (hI : Reportable I) (tyvars : Option (List String)) :
    ∀ ts : List Surface.TypeExpr,
      Preserves I (typesOf tyvars ts) fun us => ∀ u ∈ us, u.uvarOccurrences = []
  | [] => by
    unfold typesOf
    exact .pure (by simp)
  | t :: ts => by
    unfold typesOf
    refine .bind (preserves_typeOf hI tyvars t) fun u hu => ?_
    exact .bind (preserves_typesOf hI tyvars ts) fun us hus =>
      .pure (List.forall_mem_cons.2 ⟨hu, hus⟩)

end

theorem preserves_classOf (hI : Reportable I) (occ : String) (loc : Span) :
    Preserves I (classOf occ loc) fun _ => True := by
  unfold classOf
  refine .bind .get fun s _ => ?_
  dsimp only
  split
  · next he =>
    exact .bind (preserves_report hI (constraint?_of_resolve he) _) fun _ _ => .pure trivial
  split
  · exact .pure trivial
  · exact .bind (preserves_report hI rfl _) fun _ _ => .pure trivial

theorem preserves_predOf (hI : Reportable I) (p : Surface.PredExpr) :
    Preserves I (predOf p) fun q => ∀ x ∈ q, x.arg = .var p.tyvar := by
  refine .bind (preserves_classOf hI p.cls p.loc) fun c _ => .pure fun x hx => ?_
  obtain ⟨n, -, rfl⟩ := Option.map_eq_some_iff.1 hx
  rfl

theorem preserves_schemeOf (hI : Reportable I) (q : Surface.QualType) :
    Preserves I (schemeOf q) (·.body.uvarOccurrences = []) :=
  .bind (preserves_typeOf hI none q.body) fun _ hbody =>
    .bind (.mapM fun p _ => (preserves_predOf hI p).weaken fun _ _ => trivial) fun _ _ =>
      .pure hbody

-- Names of values

theorem keeps_dataCon (decl : Surface.DataDecl) (parent : Name) (c : Surface.ConDecl) :
    Keeps m start (dataCon decl parent c) fun _ => True := by
  refine .bind (preserves_typesOf reportable_sound _ _) fun args _ d hd => ?_
  obtain ⟨hd', hn⟩ := sound_define_value hd c.name c.loc
  rw [StateT.run_bind]
  generalize (define .value c.name c.loc).run d = r at hd' hn
  obtain ⟨n, d'⟩ := r
  cases n with
  | none => exact ⟨hd', trivial⟩
  | some n =>
    obtain ⟨rfl, hplace, hno⟩ := hn n rfl
    refine ⟨hd'.addEntity trivial (fun _ h => by cases h) fun c' occ hc hocc => ?_, trivial⟩
    cases hc
    obtain rfl : c.name = occ := congrArg Name.occ hocc
    exact ⟨hplace, hno⟩

theorem keeps_dataCons (decl : Surface.DataDecl) :
    Keeps m start (dataCons decl) fun _ => True := by
  unfold dataCons
  refine .bind .get fun s _ => ?_
  dsimp only
  split
  · split
    · refine .bind (.mapM fun c _ => keeps_dataCon _ _ c) fun cons _ => ?_
      exact keeps_addEntity trivial (fun _ h => by cases h) fun _ h => by cases h
    · exact .pure trivial
  · exact .pure trivial

theorem keeps_method (cls : Name) (s : Scheme) (name : String × Span) :
    Keeps m start (method cls s name) fun r => ∀ x ∈ r, x.scheme = s := by
  refine .bind (keeps_define_value _ _) fun r _ => ?_
  cases r with
  | none => exact .pure (by simp)
  | some n =>
    refine .bind (keeps_addIdent _) fun _ _ => .pure ?_
    simp

theorem keeps_methodSig (c : Surface.ClassDecl) (cls : Name) (sig : Surface.TypeSig) :
    Keeps m start (methodSig c cls sig) fun ms =>
      ∀ x ∈ ms, x.scheme.body.uvarOccurrences = [] ∧ x.scheme.OfMethod c.tyvar := by
  have hmethods {body : Ty} (hbody : body.uvarOccurrences = []) : Keeps m start
      (sig.names.mapM (method cls
        ⟨c.tyvar :: body.freeVars.filter (· ≠ c.tyvar), [⟨cls, .var c.tyvar⟩], body⟩))
      fun rs => ∀ r ∈ rs, ∀ x ∈ r,
        x.scheme.body.uvarOccurrences = [] ∧ x.scheme.OfMethod c.tyvar := by
    refine .mapM fun name _ => (keeps_method cls _ name).weaken fun r hr x hx => ?_
    rw [hr x hx, Scheme.OfMethod]
    exact ⟨hbody, rfl⟩
  have hI : Reportable (·.Sound m start) := reportable_sound
  refine preserves_reporting hI rfl ?_
  refine .bind (preserves_typeOf hI none sig.ty.body) fun body hbody => ?_
  refine preserves_reporting hI rfl (.bind (hmethods hbody) fun rs hrs => .pure fun x hx => ?_)
  obtain ⟨r, hr, hx⟩ := List.mem_filterMap.1 hx
  exact hrs r hr x hx

theorem keeps_classMethods {c : Surface.ClassDecl} (hc : .cls c ∈ m.decls)
    (hpl : start.places.contains (.type, c.name) = true) :
    Keeps m start (classMethods c) fun _ => True := by
  unfold classMethods
  refine .bind .get fun s hs => ?_
  dsimp only
  split
  · next t ht =>
    split
    · rw [hs.module] at ht
      have hclass : DeclaresClass m t := hs.classes c.name t (hs.places _ hpl) ht
      refine .bind (.mapM fun sig _ => keeps_methodSig c _ sig) fun ms hms => ?_
      refine keeps_addEntity (fun x hx => ?_) (fun t' h => ?_) fun _ h => by cases h
      · obtain ⟨xs, hxs, hx⟩ := List.mem_flatten.1 hx
        obtain ⟨hground, hmethod⟩ := hms xs hxs x hx
        refine ⟨hground, fun honce => ?_⟩
        obtain ⟨c', hc', hname, htyvar⟩ := hclass
        have hsame : topName m.name .type c.name = topName m.name .type c'.name :=
          (hs.globals.of_entity? ht).1.trans hname
        rw [htyvar, ← honce c c' hc hc' (congrArg Name.occ hsame)]
        exact hmethod
      · cases h
        exact hclass
    · exact .pure trivial
  · exact .pure trivial

theorem keeps_primitive (p : Surface.PrimDecl) : Keeps m start (primitive p) fun _ => True := by
  refine .bind (preserves_schemeOf reportable_sound _) fun s _ => .forM fun name _ => ?_
  refine .bind (keeps_define_value _ _) fun r _ => ?_
  cases r with
  | none => exact .pure trivial
  | some n => exact keeps_addIdent _

theorem keeps_valueNames {decl : Surface.Decl}
    (hm : decl ∈ m.decls)
    (hpl : ∀ c, decl = .cls c → start.places.contains (.type, c.name) = true) :
    Keeps m start (valueNames decl) fun _ => True := by
  cases decl with
  | data d => exact keeps_dataCons d
  | cls c => exact keeps_classMethods hm (hpl c rfl)
  | prim p => exact keeps_primitive p
  | bind b => exact .forM fun name _ => .bind (keeps_define_value _ _) fun _ _ => .pure trivial
  | sig | fixity | inst => exact .pure trivial

-- Signatures, instances and fixities

theorem constraint?_of_signatureProblem? {signed : List String} {occ : String} {p : Problem}
    (h : signatureProblem? m signed occ = some p) : p.constraint? = none := by
  unfold signatureProblem? at h
  split at h
  · cases h
    rfl
  · split at h
    · cases h
      rfl
    · split at h <;> cases h
      rfl

theorem keeps_signature (decl : Surface.Decl) :
    Keeps m start (signature m decl) fun _ => True := by
  cases decl with
  | sig d =>
    refine .bind (preserves_schemeOf reportable_sound _) fun scheme hscheme => ?_
    refine .forM fun name _ => .bind .get fun s hs => ?_
    split
    · next hp => exact preserves_report reportable_sound (constraint?_of_signatureProblem? hp) _
    · exact .bind (.set (hs.putSignature _ hscheme)) fun _ _ => keeps_addIdent _
  | _ => exact .pure trivial

theorem nodup_of_headTyvars? {t : Surface.TypeExpr} {vs : List String}
    (h : headTyvars? t = some vs) : vs.Nodup := by
  cases t with
  | con c args l =>
    obtain ⟨ws, -, hws⟩ := Option.bind_eq_some_iff.1 h
    split at hws
    · next hn => exact Option.some.inj hws ▸ hn
    · cases hws
  | _ => cases h

theorem preserves_contextPred (hI : Reportable I) (tyvars : List String) (p : Surface.PredExpr) :
    Preserves I (contextPred tyvars p) fun r => ∀ q ∈ r, ∃ v ∈ tyvars, q.arg = .var v := by
  refine .bind (preserves_predOf hI p) fun r hr => ?_
  cases r with
  | none => exact .pure (by simp)
  | some q =>
    dsimp only
    split
    · next hp =>
      refine .pure fun q' hq' => ⟨p.tyvar, hp, ?_⟩
      exact Option.mem_some.1 hq' ▸ hr q rfl
    · exact .bind (preserves_report hI rfl _) fun _ _ => .pure (by simp)

/-- What an added instance leaves as it is, a declaration of one leaves as it is. -/
theorem preserves_inst_of_classOf (hI : Reportable I) {C : Name → Prop}
    {decl : Surface.InstanceDecl}
    (hcls : Preserves I (classOf decl.cls decl.loc) fun r => ∀ n ∈ r, C n)
    (hadd : ∀ d i, I d → i.WellFormed → i.name = instanceName d.globals.module i.cls i.head →
      d.globals.instanceEnv.find? i.cls i.head = none →
        I { d with globals := d.globals.addInstance i, exports := d.exports.addInstance i }) :
    Preserves I (inst decl) fun r => ∀ i ∈ r, i.WellFormed ∧ C i.cls := by
  refine .bind hcls fun r hr => ?_
  cases r with
  | none => exact .pure (by simp)
  | some cls =>
    dsimp only
    split
    · exact .bind (preserves_report hI rfl _) fun _ _ => .pure (by simp)
    next tyvars htyvars =>
    refine .bind (preserves_typeOf hI _ _) fun headTy _ => ?_
    refine .bind (.mapM fun p _ => preserves_contextPred hI tyvars p) fun qs hqs => ?_
    refine .bind .get fun s hs => ?_
    split
    · exact .bind (preserves_report hI rfl _) fun _ _ => .pure (by simp)
    · next hnone =>
      have hi : ∀ i : Instance, i.tyvars = tyvars → i.context = qs.filterMap id → i.WellFormed := by
        rintro i rfl hcontext
        refine ⟨nodup_of_headTyvars? htyvars, fun q hq => ?_⟩
        rw [hcontext] at hq
        obtain ⟨r, hr, hq⟩ := List.mem_filterMap.1 hq
        exact hqs r hr q hq
      refine .bind (.set (hadd _ _ hs (hi _ rfl rfl) rfl hnone)) fun _ _ => .pure fun i h => ?_
      exact Option.mem_some.1 h ▸ ⟨hi _ rfl rfl, hr cls rfl⟩

theorem preserves_inst_of (hI : Reportable I)
    (hadd : ∀ d i, I d → i.WellFormed → i.name = instanceName d.globals.module i.cls i.head →
      d.globals.instanceEnv.find? i.cls i.head = none →
        I { d with globals := d.globals.addInstance i, exports := d.exports.addInstance i })
    (decl : Surface.InstanceDecl) : Preserves I (inst decl) fun r => ∀ i ∈ r, i.WellFormed := by
  have hcls : Preserves I (classOf decl.cls decl.loc) fun r => ∀ n ∈ r, True :=
    (preserves_classOf hI _ _).weaken fun _ _ _ _ => trivial
  exact (preserves_inst_of_classOf hI hcls hadd).weaken fun _ hr i hi => (hr i hi).1

/-- What an added fixity leaves as it is, a declaration of fixities leaves as it is. -/
theorem preserves_fixity_of (hI : Reportable I)
    (hadd : ∀ d op f, I d → d.places.contains (.value, op) = true →
      d.exports.fixities.contains (topName d.globals.module .value op) = false →
        I { d with
          globals := d.globals.addFixity (topName d.globals.module .value op) f
          exports := d.exports.addFixity (topName d.globals.module .value op) f })
    (decl : Surface.FixityDecl) : Preserves I (fixity decl) fun _ => True := by
  refine .forM fun op _ => .bind .get fun s hs => ?_
  dsimp only
  split
  · exact preserves_report hI rfl _
  next hplace =>
  split
  · exact preserves_report hI rfl _
  · next hnew => exact .set (hadd s op _ hs (by simpa using hplace) (by simpa using hnew))

theorem preserves_instancesAndFixities_of {Q : Instance → Prop}
    (hinst : ∀ d, Preserves I (inst d) fun r => ∀ i ∈ r, Q i)
    (hfixity : ∀ d, Preserves I (fixity d) fun _ => True) (decls : List Surface.Decl) :
    Preserves I (instancesAndFixities decls) fun is => ∀ p ∈ is, Q p.1 := by
  induction decls with
  | nil => exact .pure (by simp)
  | cons decl decls ih =>
    cases decl with
    | inst d =>
      refine .bind (hinst d) fun r hr => .bind ih fun is his => .pure ?_
      cases r with
      | none => exact his
      | some i => exact List.forall_mem_cons.2 ⟨hr i rfl, his⟩
    | fixity d => exact .bind (hfixity d) fun _ _ => ih
    | _ => exact ih

theorem keeps_instancesAndFixities (decls : List Surface.Decl) :
    Keeps m start (instancesAndFixities decls) fun is => ∀ p ∈ is, p.1.WellFormed :=
  preserves_instancesAndFixities_of
    (preserves_inst_of reportable_sound fun _ _ hd hi _ _ => hd.addInstance hi)
    (preserves_fixity_of reportable_sound fun _ _ _ hd _ _ => hd.addFixity _ _) decls

-- Names of types

theorem keeps_wireIn_dataCon (hs : start.places = []) {c : DataCon}
    (hspace : c.name.space = .value) : Keeps m start (wireIn (.dataCon c)) fun _ => True := by
  intro d hd
  have hplace := hd.place (c.name.space, c.name.occ) c.loc fun occ t hk => by
    rw [hspace] at hk
    cases hk
  refine ⟨hplace.addEntity trivial (fun _ h => by cases h) fun c' occ h hocc => ?_, trivial⟩
  cases h
  refine ⟨Table.contains_put.2 (.inl ?_), by rw [hs]; rfl⟩
  rw [hocc]
  rfl

theorem keeps_wireIn_tyCon {t : TyCon} (hname : t.name = topName m.name t.name.space t.name.occ) :
    Keeps m start (wireIn (.tyCon t)) fun _ => True := by
  intro d hd
  have hadd := hd.addEntity (e := .tyCon t) trivial (fun _ h => by cases h) fun _ _ h => by cases h
  refine ⟨hadd.place (t.name.space, t.name.occ) t.loc fun occ t' hk ht => ?_, trivial⟩
  obtain ⟨hspace, hocc⟩ := Prod.mk.inj hk
  have hput : (d.globals.entities.put t.name (.tyCon t)).get? (topName m.name .type occ) =
    some (.typeClass t') := ht
  rw [← hspace, ← hocc, ← hname, Table.get?_put_self] at hput
  cases hput

/-- Declares a name of a type or a class. -/
def introduce (occ : String) (loc : Span) (e : Name → Entity) : DeclareM Unit := do
  if let some n ← define .type occ loc then addEntity (e n)

theorem sound_introduce (occ : String) (loc : Span) {e : Name → Entity}
    (hd : d.Sound m start) (hname : ∀ n, (e n).name = n)
    (he : ∀ n, (e n).WellFormed (ClassesOnce m))
    (hc : ∀ t, e (topName m.name .type occ) = .typeClass t → DeclaresClass m t)
    (hcon : ∀ n c, e n ≠ .dataCon c) :
    let d' := ((introduce occ loc e).run d).2
    d'.Sound m start ∧ d'.places.contains (.type, occ) = true ∧
      (d.places.contains (.type, occ) = true → ∃ r ∈ d'.reports, r.isError = true) := by
  intro d'
  cases hp : d.places.get? (.type, occ) with
  | some previous =>
    let report : Report := ⟨.declaredTwice occ previous, loc⟩
    have hd' : d' = { d with reports := report :: d.reports } := by
      simp only [d', introduce, StateT.run_bind, run_define_of_some hp]
      rfl
    rw [hd']
    refine ⟨hd.report rfl, ?_, fun _ => ⟨report, List.mem_cons_self .., rfl⟩⟩
    simp [Table.contains, hp]
  | none =>
    let n := topName m.name .type occ
    let g := { d.globals with scope := d.globals.scope.add ⟨n, loc⟩ }
    have hd' : d' = { d with
        places := d.places.put (.type, occ) loc
        globals := g.addEntity (e n)
        exports := d.exports.addEntity (e n) } := by
      simp only [d', introduce, StateT.run_bind, run_define_of_none hp, hd.module]
      rfl
    rw [hd']
    refine ⟨?_, Table.contains_put.2 (.inl rfl), fun h => ?_⟩
    · have hadd := (hd.scope ⟨n, loc⟩).addEntity (he n) hc fun c _ h => absurd h (hcon n c)
      refine hadd.place (.type, occ) loc fun occ' t hk ht => hc t ?_
      obtain ⟨-, rfl⟩ := Prod.mk.inj hk
      have hput : (d.globals.entities.put (e n).name (e n)).get? n = some (.typeClass t) := ht
      rw [hname n, Table.get?_put_self] at hput
      exact Option.some.inj hput
    · simp [Table.contains, hp] at h

theorem sound_typeName {decl : Surface.Decl} (hd : d.Sound m start) (hm : decl ∈ m.decls) :
    let d' := ((typeName decl).run d).2
    d'.Sound m start ∧ ∀ c, decl = .cls c → d'.places.contains (.type, c.name) = true ∧
      (d.places.contains (.type, c.name) = true → ∃ r ∈ d'.reports, r.isError = true) := by
  cases decl with
  | data decl =>
    let e (n : Name) : Entity := .tyCon ⟨n, decl.nameLoc, decl.tyvars, []⟩
    have hintroduce := sound_introduce decl.name decl.nameLoc (e := e) hd (fun _ => rfl)
      (fun _ => trivial) (fun t h => by cases h) (fun _ _ h => by cases h)
    exact ⟨hintroduce.1, fun c hc => by cases hc⟩
  | cls c =>
    let e (n : Name) : Entity := .typeClass ⟨n, c.nameLoc, c.tyvar, []⟩
    have hclass : ∀ t, e (topName m.name .type c.name) = .typeClass t → DeclaresClass m t := by
      intro t h
      cases h
      exact ⟨c, hm, rfl, rfl⟩
    have hintroduce := sound_introduce c.name c.nameLoc (e := e) hd (fun _ => rfl)
      (fun _ _ h => absurd h List.not_mem_nil) hclass (fun _ _ h => by cases h)
    refine ⟨hintroduce.1, fun c' hc => ?_⟩
    cases hc
    exact hintroduce.2
  | _ => exact ⟨hd, fun c hc => by cases hc⟩

/-- Without errors, class declarations of one name are one declaration. -/
theorem sound_typeNames {decls : List Surface.Decl} (hm : decls ⊆ m.decls)
    (hd : d.Sound m start) :
    let d' := ((decls.forM typeName).run d).2
    d'.Sound m d ∧ (∀ c, .cls c ∈ decls → d'.places.contains (.type, c.name) = true) ∧
      ((∀ r ∈ d'.reports, r.isError = false) →
        (∀ c, .cls c ∈ decls → d.places.contains (.type, c.name) = false) ∧
        ∀ c c', .cls c ∈ decls → .cls c' ∈ decls → c.name = c'.name → c = c') := by
  induction decls generalizing d start with
  | nil =>
    refine ⟨hd.restart, by simp, fun _ => ⟨by simp, by simp⟩⟩
  | cons decl decls ih =>
    intro d'
    let d₁ := ((typeName decl).run d).2
    obtain ⟨hdecl, hdecls⟩ := List.cons_subset.1 hm
    obtain ⟨hd₁, hown⟩ := sound_typeName hd.restart hdecl
    obtain ⟨hd', hpl, hno⟩ := ih hdecls hd₁
    refine ⟨hd'.trans hd₁, fun c hc => ?_, fun hok => ?_⟩
    · rcases List.mem_cons.1 hc with h | h
      · exact hd'.places _ (hown c h.symm).1
      · exact hpl c h
    · obtain ⟨hnew, hone⟩ := hno hok
      have hhead : ∀ c, decl = .cls c → d.places.contains (.type, c.name) = false := by
        intro c hc
        refine Bool.eq_false_iff.2 fun h => ?_
        obtain ⟨r, hr, herror⟩ := (hown c hc).2 h
        rw [hok r (hd'.reports hr)] at herror
        cases herror
      have hapart : ∀ c c', decl = .cls c → .cls c' ∈ decls → c.name ≠ c'.name := by
        intro c c' hc hc' hname
        have hfree : d₁.places.contains (.type, c'.name) = false := hnew c' hc'
        rw [← hname, (hown c hc).1] at hfree
        cases hfree
      refine ⟨fun c hc => ?_, fun c c' hc hc' hname => ?_⟩
      · rcases List.mem_cons.1 hc with h | h
        · exact hhead c h.symm
        · refine Bool.eq_false_iff.2 fun hc => ?_
          have hc' := hd₁.places _ hc
          rw [hnew c h] at hc'
          cases hc'
      · rcases List.mem_cons.1 hc with h | h <;> rcases List.mem_cons.1 hc' with h' | h'
        · exact Surface.Decl.cls.inj (h.trans h'.symm)
        · exact absurd hname (hapart c c' h.symm h')
        · exact absurd hname.symm (hapart c' c h'.symm h)
        · exact hone c c' h h' hname

-- Modules

theorem keeps_listEntities (hm : m.name = preludeModule) (hs : start.places = []) :
    Keeps m start (listEntities.forM wireIn) fun _ => True := by
  refine .forM fun e he => ?_
  simp only [listEntities, List.mem_cons, List.not_mem_nil, or_false] at he
  rcases he with rfl | rfl | rfl
  · exact keeps_wireIn_tyCon (by rw [hm]; rfl)
  · exact keeps_wireIn_dataCon hs rfl
  · exact keeps_wireIn_dataCon hs rfl

theorem mem_bindings {b : Surface.Binding} : b ∈ m.bindings ↔ .bind b ∈ m.decls := by
  rw [Surface.Module.bindings, List.mem_filterMap]
  constructor
  · rintro ⟨decl, hdecl, h⟩
    cases decl with
    | bind b' => exact Option.some.inj h ▸ hdecl
    | _ => cases h
  · exact fun h => ⟨_, h, rfl⟩

theorem keeps_forM_valueNames {decls : List Surface.Decl} (hm : decls ⊆ m.decls)
    (hpl : ∀ c, .cls c ∈ m.decls → start.places.contains (.type, c.name) = true) :
    Keeps m start (decls.forM valueNames) fun _ => True :=
  .forM fun _ hdecl => keeps_valueNames (hm hdecl) fun c h => hpl c (h ▸ hm hdecl)

theorem keeps_signatures : Keeps m start (do
    m.decls.forM (signature m)
    instancesAndFixities m.decls) fun is => ∀ p ∈ is, p.1.WellFormed :=
  .bind (.forM fun _ _ => keeps_signature _) fun _ _ => keeps_instancesAndFixities m.decls

/-- The declarations of a module, after the types and classes have their names. -/
theorem keeps_values
    (hpl : ∀ c, .cls c ∈ m.decls → start.places.contains (.type, c.name) = true) :
    Keeps m start (do
      m.decls.forM valueNames
      m.decls.forM (signature m)
      instancesAndFixities m.decls) fun is => ∀ p ∈ is, p.1.WellFormed :=
  .bind (keeps_forM_valueNames (fun _ h => h) hpl) fun _ _ => keeps_signatures

-- Names of bindings

/-- What is wired in has a place. -/
theorem contains_wireIn (d : Declaring) : ∀ e ∈ listEntities,
    ((listEntities.forM wireIn).run d).2.places.contains (e.name.space, e.name.occ) = true := by
  have hplaces : ((listEntities.forM wireIn).run d).2.places = listEntities.foldl
      (fun ps e => ps.put (e.name.space, e.name.occ) e.loc) d.places := rfl
  rw [hplaces]
  simp [listEntities, Table.contains_put]

/-- Without errors, binders are declared then and not before, and none of them is a new
constructor. -/
theorem apart_binders {ys : List (String × Span)} (hd : d.Sound m start)
    (hok : ∀ r ∈ ((ys.forM fun y => do let _ ← define .value y.1 y.2).run d).2.reports,
      r.isError = false) :
    let d' := ((ys.forM fun y => do let _ ← define .value y.1 y.2).run d).2
    ∀ y ∈ ys, d.places.contains (.value, y.1) = false ∧
      d'.places.contains (.value, y.1) = true ∧
      (d'.Constructs m y.1 → start.Constructs m y.1) := by
  induction ys generalizing d with
  | nil => simp
  | cons y ys ih =>
    intro d'
    let d₁ := ((define .value y.1 y.2).run d).2
    have hd₁ : d₁.Sound m start := (sound_define_value hd y.1 y.2).1
    have hgrow : d₁.Sound m d := (sound_define_value hd.restart y.1 y.2).1
    have hd' : d'.Sound m d₁ := by
      have hkeeps : Keeps m d₁ (ys.forM fun y => do let _ ← define .value y.1 y.2) fun _ => True :=
        .forM fun y _ => .bind (keeps_define_value _ _) fun _ _ => .pure trivial
      exact (hkeeps d₁ hd₁.restart).1
    refine List.forall_mem_cons.2 ⟨?_, fun z hz => ?_⟩
    swap
    · obtain ⟨hnew, hrest⟩ := ih hd₁ hok z hz
      exact ⟨hgrow.new hnew, hrest⟩
    cases hp : d.places.get? (.value, y.1) with
    | some previous =>
      have hrun : (define .value y.1 y.2).run d = (none, _) := run_define_of_some hp
      have hd₁' : d₁ = _ := congrArg Prod.snd hrun
      have herror := hok ⟨.declaredTwice y.1 previous, y.2⟩
        (hd'.reports (hd₁' ▸ List.mem_cons_self ..))
      cases herror
    | none =>
      have hrun : (define .value y.1 y.2).run d = (some _, _) := run_define_of_none hp
      have hd₁' : d₁ = _ := congrArg Prod.snd hrun
      have hplace : d₁.places.contains (.value, y.1) = true := by
        rw [hd₁']
        exact Table.contains_put.2 (.inl rfl)
      have hnew : d.places.contains (.value, y.1) = false := by rw [Table.contains, hp]; rfl
      refine ⟨hnew, hd'.places _ hplace, fun hc => ?_⟩
      have hc : d.Constructs m y.1 := by
        have hc := hd'.constructs hplace hc
        rwa [hd₁'] at hc
      refine (hd.constructors _ hc).resolve_right fun h => ?_
      rw [hnew] at h
      cases h.1

theorem apart_valueNames {decls : List Surface.Decl} (hm : decls ⊆ m.decls) (hd : d.Sound m start)
    (hpl : ∀ c, .cls c ∈ m.decls → d.places.contains (.type, c.name) = true)
    (hok : ∀ r ∈ ((decls.forM valueNames).run d).2.reports, r.isError = false) :
    let d' := ((decls.forM valueNames).run d).2
    ∀ b, .bind b ∈ decls → ∀ y ∈ b.binders, d.places.contains (.value, y.1) = false ∧
      d'.places.contains (.value, y.1) = true ∧
      (d'.Constructs m y.1 → start.Constructs m y.1) := by
  induction decls generalizing d with
  | nil => simp
  | cons decl decls ih =>
    intro d' b hb y hy
    obtain ⟨hdecl, hdecls⟩ := List.cons_subset.1 hm
    let d₁ := ((valueNames decl).run d).2
    have hd₁ : d₁.Sound m d :=
      (keeps_valueNames hdecl (fun c h => hpl c (h ▸ hdecl)) d hd.restart).1
    have hpl₁ (c : Surface.ClassDecl) (hc : .cls c ∈ m.decls) :
        d₁.places.contains (.type, c.name) = true :=
      hd₁.places _ (hpl c hc)
    have hd' : d'.Sound m d₁ := (keeps_forM_valueNames hdecls hpl₁ d₁ hd₁.restart).1
    rcases List.mem_cons.1 hb with rfl | hb
    · obtain ⟨hnew, hplace, hold⟩ := apart_binders hd (fun r hr => hok r (hd'.reports hr)) y hy
      exact ⟨hnew, hd'.places _ hplace, fun hc => hold (hd'.constructs hplace hc)⟩
    · obtain ⟨hnew, hrest⟩ := ih hdecls (hd₁.trans hd) hpl₁ hok b hb y hy
      exact ⟨hd₁.new hnew, hrest⟩

end Declare

/-- What is known before any declaration of a module. -/
def Declaring.initial (m : Surface.Module) (imports : List Exports) : Declaring :=
  { globals := imports.foldl Globals.importAll (.empty m.name), exports := { module := m.name } }

/-- The instances that a module declares, and all that it declares. -/
def declared (m : Surface.Module) (imports : List Exports) :
    List (Instance × Surface.InstanceDecl) × Declaring :=
  (Declare.all m).run (.initial m imports)

theorem module_initial {imports : List Exports} :
    (Declaring.initial m imports).globals.module = m.name := by
  have himports (xs : List Exports) (g : Globals) :
      (xs.foldl Globals.importAll g).module = g.module := by
    induction xs generalizing g with
    | nil => rfl
    | cons x xs ih => exact (ih (g.importAll x)).trans (Globals.module_importAll g x)
  exact himports imports _

theorem sound_initial {imports : List Exports} (hi : ∀ x ∈ imports, x.WellFormed True) :
    (Declaring.initial m imports).Sound m (Declaring.initial m imports) := by
  have himports {xs : List Exports} (hxs : ∀ x ∈ xs, x.WellFormed (ClassesOnce m)) {g : Globals}
      (hg : g.WellFormed (ClassesOnce m)) :
      (xs.foldl Globals.importAll g).WellFormed (ClassesOnce m) := by
    induction xs generalizing g with
    | nil => exact hg
    | cons x xs ih =>
      obtain ⟨hx, hxs⟩ := List.forall_mem_cons.1 hxs
      exact ih hxs (hg.importAll hx)
  have hempty : (Globals.empty m.name).WellFormed (ClassesOnce m) :=
    ⟨fun _ h => absurd h List.not_mem_nil, fun _ h => absurd h List.not_mem_nil⟩
  have hexports : Exports.WellFormed (ClassesOnce m) { module := m.name } :=
    ⟨fun _ h => absurd h List.not_mem_nil, fun _ h => absurd h List.not_mem_nil⟩
  exact {
    module := module_initial
    globals := himports (fun x hx => (hi x hx).mono fun _ => trivial) hempty
    exports := hexports
    signatures := fun _ h => absurd h List.not_mem_nil
    classes := fun _ _ h => by cases h
    constructors := fun _ h => .inl h
    places := fun _ h => h
    reports := fun _ h => h
    constraints := fun _ h => absurd h List.not_mem_nil }

/-- What comes after the types and classes of a module have their names. In the bundled module the
list type and its constructors have theirs, too. -/
theorem exists_run_values {imports : List Exports} (hi : ∀ x ∈ imports, x.WellFormed True) :
    ∃ d₁ : Declaring, d₁.Sound m (.initial m imports) ∧
      (∀ c, .cls c ∈ m.decls → d₁.places.contains (.type, c.name) = true) ∧
      ((∀ r ∈ d₁.reports, r.isError = false) → ClassesOnce m) ∧
      (m.name = preludeModule → ∀ e ∈ Declare.listEntities,
        d₁.places.contains (e.name.space, e.name.occ) = true) ∧
      declared m imports = StateT.run (do
        m.decls.forM Declare.valueNames
        m.decls.forM (Declare.signature m)
        Declare.instancesAndFixities m.decls) d₁ := by
  let wiring : DeclareM Unit :=
    if m.name = preludeModule then Declare.listEntities.forM Declare.wireIn else pure ()
  let rest : DeclareM (List (Instance × Surface.InstanceDecl)) := do
    m.decls.forM Declare.valueNames
    m.decls.forM (Declare.signature m)
    Declare.instancesAndFixities m.decls
  have hall : Declare.all m = (do wiring; m.decls.forM Declare.typeName; rest) := by
    unfold Declare.all
    simp only [wiring]
    split
    · rfl
    · rfl
  let d₀ := (wiring.run (.initial m imports)).2
  have hd₀ : d₀.Sound m (.initial m imports) := by
    have hwiring : Keeps m (.initial m imports) wiring fun _ => True := by
      simp only [wiring]
      split
      · next h => exact Declare.keeps_listEntities h rfl
      · exact .pure trivial
    exact (hwiring _ (sound_initial hi)).1
  have hlist (hm : m.name = preludeModule) :
      ∀ e ∈ Declare.listEntities, d₀.places.contains (e.name.space, e.name.occ) = true := by
    simp only [d₀, wiring, if_pos hm]
    exact Declare.contains_wireIn _
  obtain ⟨hd₁, hpl, hone⟩ := Declare.sound_typeNames (fun _ h => h) hd₀
  refine ⟨_, hd₁.trans hd₀, hpl, fun hok => (hone hok).2, fun hm e he => ?_, ?_⟩
  · exact hd₁.places _ (hlist hm e he)
  rw [declared, hall]
  rfl

/-- A module whose declarations are accepted declares each class once. -/
theorem sound_declared {imports : List Exports} (hi : ∀ x ∈ imports, x.WellFormed True) :
    (declared m imports).2.Sound m (.initial m imports) ∧
      (∀ p ∈ (declared m imports).1, p.1.WellFormed) ∧
      ((∀ r ∈ (declared m imports).2.reports, r.isError = false) → ClassesOnce m) := by
  obtain ⟨d₁, hd₁, hpl, honce, -, hrun⟩ := exists_run_values hi
  obtain ⟨hd, his⟩ := Declare.keeps_values hpl d₁ hd₁.restart
  rw [hrun]
  exact ⟨hd.trans hd₁, his, fun hok => honce fun r hr => hok r (hd.reports hr)⟩

/-- If declarations are accepted, what a binding defines denotes a constructor only if an import
makes it one. A binding of the bundled module does not define what lists consist of. -/
theorem constructs_declared {imports : List Exports} (hi : ∀ x ∈ imports, x.WellFormed True)
    (hok : ∀ r ∈ (declared m imports).2.reports, r.isError = false) :
    ∀ b ∈ m.bindings, ∀ y ∈ b.binders,
      ((declared m imports).2.Constructs m y.1 → (Declaring.initial m imports).Constructs m y.1) ∧
      ∀ e ∈ Declare.listEntities, e.name ≠ topName m.name .value y.1 := by
  obtain ⟨d₁, hd₁, hpl, -, hlist, hrun⟩ := exists_run_values hi
  let d₂ := ((m.decls.forM Declare.valueNames).run d₁).2
  have hd₂ : d₂.Sound m d₁ := (Declare.keeps_forM_valueNames (fun _ h => h) hpl d₁ hd₁.restart).1
  have hd : (declared m imports).2.Sound m d₂ := by
    rw [hrun]
    exact (Declare.keeps_signatures d₂ hd₂.restart).1
  have hapart := Declare.apart_valueNames (fun _ h => h) hd₁ hpl fun r hr => hok r (hd.reports hr)
  intro b hb y hy
  obtain ⟨hnew, hplace, hold⟩ := hapart b (Declare.mem_bindings.1 hb) y hy
  refine ⟨fun hc => hold (hd.constructs hplace hc), fun e he hname => ?_⟩
  have hmodule : e.name.module = m.name := congrArg Name.module hname
  have hbundled : ∀ e ∈ Declare.listEntities, e.name.module = preludeModule := by decide
  have hplaced := hlist (hmodule.symm.trans (hbundled e he)) e he
  rw [hname] at hplaced
  exact absurd hplaced (Bool.eq_false_iff.1 hnew)

end Check

end TypeLens
