import Mathlib.Data.List.Count
import TypeLens.Proofs.Checking.Families

/-!
The tables of a module that is accepted: what is in scope, what names denote, and what is exported.
They agree if the module and all that it imports have different names, and so have the imports of
those.
-/

namespace TypeLens

namespace Families

variable {t : Table Name Entity} {p : Name}

theorem nil (p : Name) : Families [] p [] where
  named n e h := by cases h
  listed n e h := by cases h
  parents n e q h := by cases h
  expected c h := by cases h

/-- Families stay together when tables are united. -/
theorem union {ts : List (Table Name Entity)} (hts : ∀ u ∈ ts, Families u p [])
    (h : ∀ n e, t.get? n = some e ↔ ∃ u ∈ ts, u.get? n = some e) : Families t p [] where
  named n e he := by
    obtain ⟨u, hu, he⟩ := (h n e).1 he
    exact (hts u hu).named n e he
  listed n e he c hc := by
    obtain ⟨u, hu, he⟩ := (h n e).1 he
    obtain ⟨hfound, hparent⟩ := (hts u hu).listed n e he c hc
    exact ⟨(h _ _).2 ⟨u, hu, hfound⟩, hparent⟩
  parents n e q he hq := by
    obtain ⟨u, hu, he⟩ := (h n e).1 he
    exact ((hts u hu).parents n e q he hq).imp_left fun ⟨f, hf, hcount⟩ =>
      ⟨f, (h _ _).2 ⟨u, hu, hf⟩, hcount⟩
  expected c hc := by cases hc

/-- The type of a constructor lists it once. -/
theorem tyCon_of_dataCon (h : Families t p []) {n : Name} {c : DataCon}
    (hc : t.get? n = some (.dataCon c)) :
    ∃ u, t.get? c.parent = some (.tyCon u) ∧ u.dataCons.count c = 1 := by
  obtain ⟨f, hf, hcount⟩ := (h.parents n _ c.parent hc rfl).resolve_right fun h => by cases h.2
  cases f with
  | tyCon u =>
    refine ⟨u, hf, ?_⟩
    rw [← hcount, Entity.children, List.count_map_of_injective _ _ fun _ _ => Entity.dataCon.inj]
  | typeClass u =>
    have hmem := List.count_pos_iff.1 (hcount ▸ Nat.one_pos)
    obtain ⟨i, -, hi⟩ := List.mem_map.1 hmem
    cases hi
  | _ => cases hcount

/-- The class of a method lists it once. -/
theorem typeClass_of_method (h : Families t p []) {n cls : Name} {i : Identifier}
    (hi : t.get? n = some (.ident i)) (hcls : i.parent = some cls) :
    ∃ c, t.get? cls = some (.typeClass c) ∧ c.methods.count i = 1 := by
  obtain ⟨f, hf, hcount⟩ := (h.parents n _ cls hi hcls).resolve_right fun h => by cases h.2
  cases f with
  | typeClass c =>
    refine ⟨c, hf, ?_⟩
    rw [← hcount, Entity.children, List.count_map_of_injective _ _ fun _ _ => Entity.ident.inj]
  | tyCon u =>
    have hmem := List.count_pos_iff.1 (hcount ▸ Nat.one_pos)
    obtain ⟨c, -, hc⟩ := List.mem_map.1 hmem
    cases hc
  | _ => cases hcount

end Families

/-- What a module exports is its own, stands once, and is in families. -/
structure Exports.Kindred (x : Exports) : Prop where
  own : ∀ n e, x.entities.get? n = some e → n.module = x.module
  nodup : x.entities.keys.Nodup
  families : ∀ p, Families x.entities p []

namespace Globals

variable {g : Globals} {n : Name}

theorem entity?_importInstance (i : Instance) : (g.importInstance i).entity? n = g.entity? n := by
  unfold importInstance
  split <;> rfl

/-- What is imported comes before what was known. -/
theorem entity?_importAll {x : Exports} (hx : x.Kindred) :
    (g.importAll x).entity? n = (x.entities.get? n).or (g.entity? n) := by
  have hentities {t : Table Name Entity} (hnodup : t.keys.Nodup)
      (hnamed : ∀ p ∈ t, p.1 = p.2.name) (g : Globals) :
      (t.values.foldl addEntity g).entity? n = (t.get? n).or (g.entity? n) := by
    induction t generalizing g with
    | nil => rfl
    | cons p t ih =>
      obtain ⟨k, e⟩ := p
      obtain ⟨hk, ht⟩ := List.nodup_cons.1 hnodup
      obtain ⟨hname, hrest⟩ := List.forall_mem_cons.1 hnamed
      obtain rfl : k = e.name := hname
      show ((Table.values t).foldl addEntity (g.addEntity e)).entity? n = _
      rw [ih ht hrest, show (g.addEntity e).entity? n = _ from Table.get?_put ..]
      by_cases hname : e.name = n
      · have hnone : Table.get? n t = none := Table.get?_eq_none_iff.2 (hname ▸ hk)
        simp [Table.get?, hname, hnone]
      · simp [Table.get?, hname, entity?]
  have hinstances (is : List Instance) (g : Globals) :
      (is.foldl importInstance g).entity? n = g.entity? n := by
    induction is generalizing g with
    | nil => rfl
    | cons i is ih => exact (ih _).trans (entity?_importInstance i)
  have hnamed : ∀ p ∈ x.entities, p.1 = p.2.name := fun p hp =>
    (hx.families n).named _ _ (Table.get?_of_mem hx.nodup hp)
  exact (hinstances _ _).trans (hentities hx.nodup hnamed g)

/-- Of modules that have different names it is known what they export, and nothing else. -/
theorem entity?_foldl_importAll {xs : List Exports} (hxs : ∀ x ∈ xs, x.Kindred)
    (hone : ∀ x ∈ xs, ∀ y ∈ xs, x.module = y.module → x = y) {e : Entity} :
    (xs.foldl importAll g).entity? n = some e ↔
      (∃ x ∈ xs, x.entities.get? n = some e) ∨
        (∀ x ∈ xs, x.entities.get? n = none) ∧ g.entity? n = some e := by
  induction xs generalizing g with
  | nil => simp
  | cons x xs ih =>
    obtain ⟨hx, hxs⟩ := List.forall_mem_cons.1 hxs
    have hrest : ∀ x ∈ xs, ∀ y ∈ xs, x.module = y.module → x = y := fun x hx y hy =>
      hone x (List.mem_cons_of_mem _ hx) y (List.mem_cons_of_mem _ hy)
    rw [List.foldl_cons, ih hxs hrest, entity?_importAll hx, List.exists_mem_cons_iff,
      List.forall_mem_cons]
    cases hfound : x.entities.get? n with
    | none => simp
    | some f =>
      -- what a later module says of the name is what this one says
      have hsame : ∀ y ∈ xs, ∀ e', y.entities.get? n = some e' → e' = f := by
        intro y hy e' he'
        have hmodule : x.module = y.module :=
          (hx.own n f hfound).symm.trans ((hxs y hy).own n e' he')
        obtain rfl := hone x List.mem_cons_self y (List.mem_cons_of_mem _ hy) hmodule
        exact Option.some.inj (he'.symm.trans hfound)
      simp only [Option.some_or, Option.some.injEq, reduceCtorEq, false_and, or_false]
      constructor
      · rintro (⟨y, hy, he⟩ | ⟨-, rfl⟩)
        · exact .inl (hsame y hy e he).symm
        · exact .inl rfl
      · rintro (rfl | ⟨y, hy, he⟩)
        · by_cases hany : ∀ y ∈ xs, y.entities.get? n = none
          · exact .inr ⟨hany, rfl⟩
          · push Not at hany
            obtain ⟨y, hy, hne⟩ := hany
            obtain ⟨e', he'⟩ := Option.ne_none_iff_exists'.1 hne
            exact .inl ⟨y, hy, hsame y hy e' he' ▸ he'⟩
        · exact .inl ⟨y, hy, he⟩

end Globals

/-- Scope, environment and exports of a module agree. -/
structure Checked.Agrees (module : String) (k : Checked) : Prop where
  /-- Names in scope denote something, which has that name. -/
  scope : ∀ x ∈ k.globals.scope.names, ∃ e, k.globals.entity? x.name = some e ∧ e.name = x.name
  /-- The type of a constructor lists it once. -/
  dataCon : ∀ n c, k.globals.entity? n = some (.dataCon c) →
    ∃ t, k.globals.entity? c.parent = some (.tyCon t) ∧ t.dataCons.count c = 1
  /-- The class of a method lists it once. -/
  method : ∀ n i cls, k.globals.entity? n = some (.ident i) → i.parent = some cls →
    ∃ c, k.globals.entity? cls = some (.typeClass c) ∧ c.methods.count i = 1
  /-- Constructors that are listed are there, as they are listed. -/
  dataCons : ∀ n t, k.globals.entity? n = some (.tyCon t) →
    ∀ c ∈ t.dataCons, k.globals.entity? c.name = some (.dataCon c)
  /-- So are methods. -/
  methods : ∀ n c, k.globals.entity? n = some (.typeClass c) →
    ∀ i ∈ c.methods, k.globals.entity? i.name = some (.ident i)
  /-- What is exported is what the module itself defines. -/
  exports : ∀ n e, k.exports.entities.get? n = some e ↔
    k.globals.entity? n = some e ∧ n.module = module

namespace Check

open Typed (Ident)

variable {m : Surface.Module} {imports : List Exports} {d : Declaring} {p : Name}
  {loose : List (Namespace × String)}

/-- What is exported of a module that was accepted, as are all modules that it imports. None of them
has its name, and different modules among them have different names. -/
inductive Linked : Exports → Prop
  | intro {m : Surface.Module} {imports : List Exports} {checked : Checked}
      (hi : ∀ x ∈ imports, Linked x) (hself : ∀ x ∈ imports, x.module ≠ m.name)
      (hone : ∀ x ∈ imports, ∀ y ∈ imports, x.module = y.module → x = y)
      (hm : module m imports = .ok checked) : Linked checked.exports

theorem Linked.compiled {x : Exports} (h : Linked x) : Compiled x := by
  induction h with
  | intro _ _ _ hm ih => exact .intro ih hm

theorem Linked.rooted {x : Exports} (h : Linked x) : x.Rooted := by
  induction h with
  | @intro m imports checked _ _ _ hm ih =>
    rw [eq_of_module_eq_ok hm]
    exact (sourced_run ih).exports

/-- Keys of the tables stand once, and entities of other modules are those that are imported. -/
structure Declaring.Distinct (m : Surface.Module) (imports : List Exports) (d : Declaring) :
    Prop where
  module : d.exports.module = m.name
  exports : d.exports.entities.keys.Nodup
  scope : d.globals.scope.entries.keys.Nodup
  foreign : ∀ n, n.module ≠ m.name →
    d.globals.entity? n = (Declaring.initial m imports).globals.entity? n

theorem Declaring.Distinct.addEntity (hd : d.Distinct m imports) {e : Entity} {d' : Declaring}
    (hmodule : e.name.module = m.name) (hexports : d'.exports = d.exports.addEntity e)
    (hentities : d'.globals.entities = d.globals.entities.put e.name e)
    (hscope : d'.globals.scope.entries.keys.Nodup) : d'.Distinct m imports where
  module := by
    rw [hexports]
    exact hd.module
  exports := by
    rw [hexports]
    exact Table.nodup_put hd.exports _ _
  scope := hscope
  foreign n hn := by
    have hne : e.name ≠ n := fun hname => hn (by rw [← hname, hmodule])
    rw [Globals.entity?, hentities, Table.get?_put_of_ne hne]
    exact hd.foreign n hn

theorem inductive_distinct : Inductive m true (·.Distinct m imports) := by
  intro d d' h hd
  have hscope (x : Declared) : (d.globals.scope.add x).entries.keys.Nodup :=
    Table.nodup_put hd.scope _ _
  cases h with
  | report | inst | fixity => exact ⟨hd.module, hd.exports, hd.scope, hd.foreign⟩
  | wireIn he hm =>
    have hmodule : ∀ e ∈ Declare.listEntities, e.name.module = preludeModule := by decide
    exact hd.addEntity ((hmodule _ he).trans hm.symm) rfl rfl (hscope _)
  | declare hname he hplace =>
    exact hd.addEntity (hname ▸ rfl) rfl rfl (Table.nodup_put (hscope _) _ _)
  | complete hname he => exact hd.addEntity (hname ▸ rfl) rfl rfl (hscope _)
  | bind => exact ⟨hd.module, hd.exports, hscope _, hd.foreign⟩
  | sign s loc => exact hd.addEntity (e := .ident _) rfl rfl rfl (hscope _)
  | identify occ s loc => exact hd.addEntity (e := .ident _) rfl rfl rfl (hscope _)

theorem distinct_initial : (Declaring.initial m imports).Distinct m imports where
  module := rfl
  exports := .nil
  scope := initial_of_imported (J := fun g => g.scope.entries.keys.Nodup)
    (fun _ _ _ _ _ hg => Table.nodup_put hg _ _)
    (fun _ _ _ _ _ hg => hg) (fun _ _ hg => hg) .nil
  foreign _ _ := rfl

theorem distinct_elaborate (m : Surface.Module) (imports : List Exports) :
    (elaborate m imports).declared.Distinct m imports :=
  (elaborated_of_inductive inductive_distinct distinct_initial).2

-- Bindings

theorem Declaring.Orderly.addIdents (hd : d.Orderly m loose p []) {ids : Bound}
    (hids : ∀ i ∈ ids, i.2.name = topName m.name .value i.1 ∧ (Namespace.value, i.1) ∈ loose) :
    (addIdents d ids).Orderly m loose p [] := by
  induction ids generalizing d with
  | nil => exact hd
  | cons i ids ih =>
    obtain ⟨⟨hname, hk⟩, hids⟩ := List.forall_mem_cons.1 hids
    let loc := (d.places.get? (.value, i.1)).getD .unknown
    exact ih (hd.identify (i := ⟨i.2.name, loc, i.2.scheme, none⟩) hk hname rfl) hids

theorem orderly_topGroup (hd : d.Orderly m loose p []) {g : List Job}
    (hg : ∀ y ∈ g.flatMap Job.binders, (Namespace.value, y.1) ∈ loose) :
    Returns (topGroup d g) fun r => r.2.Orderly m loose p [] := by
  have hgroup : Returns (inferGroup { globals := d.globals }
      (fun occ => return topName d.globals.module .value occ) g) fun r =>
        (addIdents d r.2).Orderly m loose p [] := by
    rw [hd.module]
    intro s
    refine hd.addIdents fun i hi => ?_
    obtain ⟨hname, hbinder, -⟩ := returns_binders _ m.name g s
    obtain ⟨y, hy, hocc⟩ := hbinder i hi
    exact ⟨hname i hi, hocc ▸ hg y hy⟩
  unfold topGroup
  split
  · exact .pure hd
  dsimp only
  split
  · split
    · exact .skip fun b => .pure hd
    · exact .bind hgroup fun r hr => .pure hr
  · exact .bind hgroup fun r hr => .pure hr

/-- Whatever the bindings of a module define, families stay as they were declared. -/
theorem orderly_binds (hd : d.Orderly m loose p []) (hcovers : Declare.Covers m loose)
    (instances : List (Instance × Surface.InstanceDecl)) :
    Returns (binds d instances m) fun r => r.2.Orderly m loose p [] := by
  have hgroups {gs : List (List Job)} {d : Declaring} (hd : d.Orderly m loose p [])
      (hgs : ∀ g ∈ gs, ∀ y ∈ g.flatMap Job.binders, (Namespace.value, y.1) ∈ loose) :
      Returns (topGroups d gs) fun r => r.2.Orderly m loose p [] := by
    induction gs generalizing d with
    | nil => exact .pure hd
    | cons g gs ih =>
      obtain ⟨hg, hgs⟩ := List.forall_mem_cons.1 hgs
      exact .bind (orderly_topGroup hd hg) fun r hr => .bind (ih hr hgs) fun _ hr' => .pure hr'
  refine .bind (hgroups hd fun g hg y hy => ?_) fun _ hr => .skip fun _ => .pure hr
  obtain ⟨j, hj, hy⟩ := List.mem_flatMap.1 hy
  obtain ⟨x, hx, rfl⟩ := Surface.mem_of_mem_groupsOf hg hj
  obtain ⟨b, hb, rfl⟩ := mem_jobs.1 hx
  exact hcovers b hb y (binders_job b ▸ hy)

-- Modules

theorem orderly_initial (hi : ∀ x ∈ imports, x.Kindred) (hself : ∀ x ∈ imports, x.module ≠ m.name)
    (hone : ∀ x ∈ imports, ∀ y ∈ imports, x.module = y.module → x = y) :
    (Declaring.initial m imports).Orderly m [] p [] where
  module := module_initial
  known n hn := by
    cases h : (Declaring.initial m imports).globals.entity? n with
    | none => rfl
    | some e =>
      rcases (Globals.entity?_foldl_importAll hi hone).1 h with ⟨x, hx, he⟩ | ⟨-, he⟩
      · exact absurd (((hi x hx).own n e he).symm.trans hn) (hself x hx)
      · cases he
  placed n e he := by cases he
  families := .nil p
  loose k hk := by cases hk

/-- If the declarations of a module are accepted, types and classes list their children, and nothing
belongs to what its bindings define. -/
theorem orderly_declared (hn : ∀ x ∈ imports, x.Named) (hi : ∀ x ∈ imports, x.Kindred)
    (hself : ∀ x ∈ imports, x.module ≠ m.name)
    (hone : ∀ x ∈ imports, ∀ y ∈ imports, x.module = y.module → x = y)
    (hok : ∀ r ∈ (declared m imports).2.reports, r.isError = false) :
    (declared m imports).2.Orderly m (m.decls.flatMap Declare.valueKeys) p [] := by
  let wiring : DeclareM Unit :=
    if m.name = preludeModule then Declare.listEntities.forM Declare.wireIn else pure ()
  let signing : DeclareM (List (Instance × Surface.InstanceDecl)) := do
    m.decls.forM (Declare.signature m)
    Declare.instancesAndFixities m.decls
  have hall : Declare.all m =
      (do wiring; m.decls.forM Declare.typeName; m.decls.forM Declare.valueNames; signing) := by
    unfold Declare.all
    simp only [wiring]
    split
    · rfl
    · rfl
  let d₀ := (wiring.run (.initial m imports)).2
  let d₁ := ((m.decls.forM Declare.typeName).run d₀).2
  let d₂ := ((m.decls.forM Declare.valueNames).run d₁).2
  have ht₀ : d₀.Tidy m (Defines m) (.initial m imports) := by
    have hwiring : Preserves (·.Tidy m (Defines m) (.initial m imports)) wiring fun _ => True := by
      simp only [wiring]
      split
      · exact Declare.preserves_listEntities rfl
      · exact .pure trivial
    exact (hwiring _ (tidy_initial hn)).1
  have ht₁ : d₁.Tidy m (Defines m) d₀ :=
    (Preserves.forM (fun decl _ => Declare.preserves_typeName decl) d₀ ht₀.restart).1
  have ht₂ : d₂.Tidy m (Defines m) d₁ :=
    (Preserves.forM (fun _ h => Declare.preserves_valueNames h) d₁ ht₁.restart).1
  have ht : (declared m imports).2.Tidy m (Defines m) d₂ := by
    have hsigning : Preserves (·.Tidy m (Defines m) d₂) signing fun _ => True :=
      .bind (.forM fun decl _ => Declare.preserves_signature decl) fun _ _ =>
        Declare.preserves_instancesAndFixities m.decls
    rw [declared, hall]
    exact (hsigning d₂ ht₂.restart).1
  have hd₀ : d₀.Orderly m [] p [] := by
    have hinitial := orderly_initial (p := p) hi hself hone
    simp only [d₀, wiring]
    split
    · next hm => exact Declare.orderly_listEntities hm hinitial rfl
    · exact hinitial
  obtain ⟨hd₁, hnodup, -⟩ := Declare.orderly_typeNames hd₀ ht₀ fun r hr =>
    hok r (ht.reports (ht₂.reports hr))
  rw [List.nil_append, ← List.append_nil (List.filterMap _ _)] at hd₁
  have hd₂ : d₂.Orderly m (m.decls.flatMap Declare.valueKeys) p [] :=
    Declare.orderly_forM_valueNames (fun _ h => h) hd₁ hnodup (List.forall_mem_nil _) ht₁
      fun r hr => hok r (ht.reports hr)
  have hsigning : Preserves (·.Orderly m (m.decls.flatMap Declare.valueKeys) p []) signing
      fun _ => True :=
    .bind (.forM fun decl _ => Declare.orderly_signature Declare.covers_valueKeys decl)
      fun _ _ => Declare.orderly_instancesAndFixities m.decls
  rw [declared, hall]
  exact (hsigning d₂ hd₂).1

section

variable {checked : Checked} (hn : ∀ x ∈ imports, x.Named) (hi : ∀ x ∈ imports, x.Kindred)
  (hself : ∀ x ∈ imports, x.module ≠ m.name)
  (hone : ∀ x ∈ imports, ∀ y ∈ imports, x.module = y.module → x = y)
  (hm : module m imports = .ok checked)
include hn hi hself hone hm

theorem orderly_elaborate (p : Name) :
    (elaborate m imports).declared.Orderly m (m.decls.flatMap Declare.valueKeys) p [] := by
  obtain ⟨hno, -⟩ := of_module_eq_ok hm
  exact orderly_binds (orderly_declared hn hi hself hone fun r hr =>
    hno r (reports_declared_subset hr)) Declare.covers_valueKeys (declared m imports).1 _

theorem kindred_of_module : checked.exports.Kindred := by
  have hdistinct := distinct_elaborate m imports
  have horderly := orderly_elaborate hn hi hself hone hm
  rw [eq_of_module_eq_ok hm]
  exact ⟨fun n e he => ((horderly n).placed n e he).1.trans hdistinct.module.symm,
    hdistinct.exports, fun p => (horderly p).families⟩

/-- What is known is what is exported, if it is the module's own, and else what is imported. -/
theorem entity?_of_module {n : Name} {e : Entity} :
    checked.globals.entity? n = some e ↔
      checked.exports.entities.get? n = some e ∨ ∃ x ∈ imports, x.entities.get? n = some e := by
  have hdistinct := distinct_elaborate m imports
  have horderly := orderly_elaborate hn hi hself hone hm n
  have hchecked : checked.exports = (elaborate m imports).declared.exports ∧
      checked.globals = (elaborate m imports).declared.globals := by
    rw [eq_of_module_eq_ok hm]
    exact ⟨rfl, rfl⟩
  rw [hchecked.1, hchecked.2]
  by_cases hown : n.module = m.name
  · rw [horderly.known n hown]
    refine (or_iff_left ?_).symm
    rintro ⟨x, hx, he⟩
    exact hself x hx (((hi x hx).own n e he).symm.trans hown)
  · rw [hdistinct.foreign n hown]
    refine ⟨fun h => .inr ?_, fun h => (Globals.entity?_foldl_importAll hi hone).2 (.inl ?_)⟩
    · refine ((Globals.entity?_foldl_importAll hi hone).1 h).resolve_right fun h => ?_
      cases h.2
    · exact h.resolve_left fun h => hown (horderly.placed n e h).1

end

theorem Linked.kindred {x : Exports} (h : Linked x) : x.Kindred := by
  induction h with
  | intro hi hself hone hm ih =>
    exact kindred_of_module (fun x hx => (hi x hx).rooted.named) ih hself hone hm

/-- Scope, environment and exports of a module that is accepted agree, if it and all that it imports
come from different modules, and so it is for those. -/
theorem tables_agree {checked : Checked} (hi : ∀ x ∈ imports, Linked x)
    (hself : ∀ x ∈ imports, x.module ≠ m.name)
    (hone : ∀ x ∈ imports, ∀ y ∈ imports, x.module = y.module → x = y)
    (hm : module m imports = .ok checked) : checked.Agrees m.name := by
  have hn : ∀ x ∈ imports, x.Named := fun x hx => (hi x hx).rooted.named
  have hk : ∀ x ∈ imports, x.Kindred := fun x hx => (hi x hx).kindred
  have hchecked : checked.exports.Kindred := kindred_of_module hn hk hself hone hm
  have hiff (n : Name) (e : Entity) := entity?_of_module hn hk hself hone hm (n := n) (e := e)
  have hsourced : checked.Sourced m.name imports := by
    rw [eq_of_module_eq_ok hm]
    exact sourced_run fun x hx => (hi x hx).rooted
  have hdistinct := distinct_elaborate m imports
  have hfamilies (p : Name) : Families checked.globals.entities p [] := by
    have hunited : ∀ u ∈ checked.exports.entities :: imports.map (·.entities), Families u p [] :=
      List.forall_mem_cons.2 ⟨hchecked.families p,
        List.forall_mem_map.2 fun x hx => (hk x hx).families p⟩
    refine .union hunited fun n e => ?_
    simpa [Globals.entity?] using hiff n e
  refine {
    scope := fun x hx => ?_
    dataCon := fun n c hc => (hfamilies n).tyCon_of_dataCon hc
    method := fun n i cls h hcls => (hfamilies n).typeClass_of_method h hcls
    dataCons := fun n t ht c hc => ((hfamilies n).listed n _ ht _ (List.mem_map_of_mem hc)).1
    methods := fun n c hc i h => ((hfamilies n).listed n _ hc _ (List.mem_map_of_mem h)).1
    exports := fun n e => ?_ }
  · obtain ⟨xs, hxs, hx⟩ := List.mem_flatten.1 hx
    obtain ⟨q, hq, rfl⟩ := List.mem_map.1 hxs
    have hscope : checked.globals.scope.entries.keys.Nodup := by
      rw [eq_of_module_eq_ok hm]
      exact hdistinct.scope
    have hlookup : checked.globals.scope.lookup q.1.1 q.1.2 = q.2 := by
      rw [Scope.lookup, Table.get?_of_mem hscope hq, Option.getD_some]
    have hknown := known_of_module (fun x hx => (hi x hx).rooted) hm q.1.1 q.1.2 x (hlookup ▸ hx)
    obtain ⟨e, he⟩ := Option.isSome_iff_exists.1 hknown
    exact ⟨e, he, (hsourced.keyed _ (Table.mem_of_get? he)).symm⟩
  · have hmodule : checked.exports.module = m.name := by
      rw [eq_of_module_eq_ok hm]
      exact hdistinct.module
    refine ⟨fun he => ⟨(hiff n e).2 (.inl he), (hchecked.own n e he).trans hmodule⟩, ?_⟩
    rintro ⟨he, hown⟩
    refine ((hiff n e).1 he).resolve_right ?_
    rintro ⟨x, hx, he⟩
    exact hself x hx (((hk x hx).own n e he).symm.trans hown)

/-- A module with `data D = D` that imports a module with a type and a class. -/
theorem tables_agree_of_import :
    let x := (run (classModule []) []).checked.exports
    let data : Surface.DataDecl := ⟨"D", [], [⟨"D", [], .unknown⟩], .unknown, .unknown⟩
    let m : Surface.Module := { Surface.Module.empty "N" with decls := [.data data] }
    module m [x] = .ok (run m [x]).checked ∧ (run m [x]).checked.Agrees "N" := by
  intro x data m
  have hx : Linked x := by
    have hm : module (classModule []) [] = .ok (run (classModule []) []).checked :=
      module_eq_ok (by decide +kernel)
    exact .intro (by simp) (by simp) (by simp) hm
  have hm : module m [x] = .ok (run m [x]).checked := module_eq_ok (by decide +kernel)
  have hname : x.module ≠ m.name := by decide +kernel
  refine ⟨hm, tables_agree (List.forall_mem_singleton.2 hx) (List.forall_mem_singleton.2 hname)
    (fun y hy z hz _ => ?_) hm⟩
  rw [List.mem_singleton.1 hy, List.mem_singleton.1 hz]

end Check

end TypeLens
