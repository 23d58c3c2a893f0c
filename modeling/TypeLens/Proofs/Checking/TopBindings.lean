import TypeLens.Proofs.Checking.LocalBindings
import TypeLens.Proofs.Checking.TopNames
import TypeLens.Proofs.Surface.Groups

/-!
Bindings of the top level, group after group. Each group takes what was declared and what the groups
before it have defined.
-/

namespace TypeLens.Check

open TypeLens.Core (BindScoped)
open Typed (Ident)

variable {m : Surface.Module}

/-- The name is that of a binding of the module, but not one of those that are checked. -/
def Unchecked (m : Surface.Module) (checked : List (List Job)) (n : Name) : Prop :=
  Defines m n ∧ ∀ g ∈ checked, ∀ j ∈ g, ∀ y ∈ j.binders, topName m.name .value y.1 ≠ n

/-- What is declared while groups are checked. -/
structure Declaring.Ahead (m : Surface.Module) (bare : Name → Prop) (d start : Declaring) :
    Prop where
  tidy : d.Tidy m bare start
  signatures : d.signatures = start.signatures
  entities : ∀ n, (start.globals.entity? n).isSome → (d.globals.entity? n).isSome

/-- Instances are well-formed, and a constructor is what lowering takes it for, if lowering takes it
for one. -/
structure Declaring.Serving (c : Core.Context) (d : Declaring) : Prop where
  reducing : ∀ i ∈ d.globals.instances, i.WellFormed
  constructors : ∀ n k, d.globals.entity? n = some (.dataCon k) →
    ∀ k', c.entity? k.name = some (.dataCon k') → k' = k

/-- What is declared while groups are checked for lowering. -/
structure Declaring.Stage (c : Core.Context) (m : Surface.Module) (bare : Name → Prop)
    (d start : Declaring) : Prop extends d.Ahead m bare start, d.Serving c

variable {c : Core.Context} {E : State} {start d : Declaring} {bare bare' : Name → Prop}
  {pre post : List (List Job)} {g : List Job}

namespace Declaring.Ahead

/-- A name is known unless it is that of a binding that is not checked and has no signature. -/
theorem knows (hd : d.Ahead m (Unchecked m pre) start) {occ : String}
    (h : Unchecked m pre (topName m.name .value occ) → d.signatures.contains occ = true) :
    Env.Knows { globals := d.globals } occ := by
  refine .inr fun n hn => ?_
  obtain ⟨rfl, -, hknown⟩ := hd.tidy.globals.resolve hn
  refine hknown.elim id fun hbare => ?_
  obtain ⟨-, -, y, -, rfl⟩ := hbare.1
  obtain ⟨e, he⟩ := Option.isSome_iff_exists.1 (hd.tidy.signatures _ (h hbare))
  obtain ⟨hname, hnamed⟩ := Declare.named_of_entity? hd.tidy he
  exact ⟨e, he, hnamed.value (hname ▸ rfl)⟩

theorem mono (hd : d.Ahead m bare start)
    (h : ∀ n, bare n → (d.globals.entity? n).isSome ∨ bare' n) : d.Ahead m bare' start :=
  { hd with tidy := hd.tidy.mono h }

/-- Identifiers that are added are known from then on. -/
theorem addIdents (hd : d.Ahead m bare start) {ids : Bound}
    (hids : ∀ i ∈ ids, i.2.name = topName m.name .value i.1) :
    (addIdents d ids).Ahead m (fun n => bare n ∧ ∀ i ∈ ids, topName m.name .value i.1 ≠ n)
      start := by
  induction ids generalizing d bare with
  | nil => exact hd.mono fun n h => .inr ⟨h, by simp⟩
  | cons i ids ih =>
    obtain ⟨hname, hids⟩ := List.forall_mem_cons.1 hids
    let loc := (d.places.get? (.value, i.1)).getD .unknown
    let e : Entity := .ident ⟨i.2.name, loc, i.2.scheme, none⟩
    have hstep : { d with
        globals := d.globals.addEntity e
        exports := d.exports.addEntity e }.Ahead m (fun n => bare n ∧ n ≠ i.2.name) start := by
      have he : e.Named := Declare.named_of_value (m := m) hname rfl
      refine ⟨hd.tidy.addEntity he, hd.signatures, fun n hn => ?_⟩
      exact Globals.isSome_entity?_addEntity.2 (.inr (hd.entities n hn))
    refine (ih hstep hids).mono fun n h => .inr ⟨h.1.1, List.forall_mem_cons.2 ⟨?_, h.2⟩⟩
    rw [← hname]
    exact Ne.symm h.1.2

end Declaring.Ahead

theorem Declaring.Serving.addIdents (hd : d.Serving c) (ids : Bound) :
    (addIdents d ids).Serving c := by
  unfold Check.addIdents
  induction ids generalizing d with
  | nil => exact hd
  | cons i ids ih =>
    let loc := (d.places.get? (.value, i.1)).getD .unknown
    let e : Entity := .ident ⟨i.2.name, loc, i.2.scheme, none⟩
    refine ih ⟨hd.reducing, fun n k hk => ?_⟩
    have hput : (d.globals.entities.put i.2.name e).get? n = some (.dataCon k) := hk
    rw [Table.get?_put] at hput
    split at hput
    · simp [e] at hput
    · exact hd.constructors n k hput

theorem Declaring.Stage.serves (hd : d.Stage c m bare start) :
    Env.Serves c [] { globals := d.globals } where
  reducing := hd.reducing
  givens := fun _ h => absurd h List.not_mem_nil
  instances := hd.tidy.globals.instances
  top := fun _ _ _ h => (hd.tidy.globals.resolve h).2.1
  constructors := hd.constructors

/-- What a binding of a group mentions is bound by the group or by one before it, if it is bound in
the module and has no signature. -/
theorem bound_of_mentions {skip : List String}
    (hg : Surface.groupsOf (jobs m.bindings) skip = pre ++ g :: post) {j : Job} (hj : j ∈ g) :
    ∃ b ∈ m.bindings, job b = j ∧ ∀ n ∈ b.mentions, n ∉ skip →
      Defines m (topName m.name .value n) → ∃ y ∈ bindersOf (pre ++ [g]), y.1 = n := by
  obtain ⟨x, hx, rfl, hmentions⟩ := Surface.mentions_groupsOf hg hj
  obtain ⟨b, hb, rfl⟩ := mem_jobs.1 hx
  refine ⟨b, hb, rfl, fun n hn hskip hbound => ?_⟩
  obtain ⟨b', hb', y, hy, hname⟩ := hbound
  obtain rfl : n = y.1 := congrArg Name.occ hname
  obtain ⟨g', hg', x', hx', hmem, hbinder⟩ := hmentions y.1 hn hskip
    ⟨_, mem_jobs.2 ⟨b', hb', rfl⟩, List.mem_map_of_mem hy⟩
  obtain ⟨b'', -, rfl⟩ := mem_jobs.1 hx'
  obtain ⟨z, hz, heq⟩ := List.mem_map.1 hbinder
  rw [← binders_job] at hz
  exact ⟨z, mem_bindersOf.2 ⟨g', hg', _, hmem, hz⟩, heq⟩

/-- What a binding of a group mentions is known, or the group binds it. -/
theorem knows_of_mentions (hd : d.Ahead m (Unchecked m pre) start)
    (hg : Surface.groupsOf (jobs m.bindings) d.signatures.keys = pre ++ g :: post) {j : Job}
    (hj : j ∈ g) : ∃ b ∈ m.bindings, job b = j ∧ ∀ n ∈ b.mentions,
      Env.Knows { globals := d.globals } n ∨ ∃ y ∈ g.flatMap Job.binders, y.1 = n := by
  obtain ⟨b, hb, rfl, hmentions⟩ := bound_of_mentions hg hj
  refine ⟨b, hb, rfl, fun n hn => ?_⟩
  by_cases hown : ∃ y ∈ g.flatMap Job.binders, y.1 = n
  · exact .inr hown
  refine .inl (hd.knows fun hbare => ?_)
  by_contra hunsigned
  have hskip : n ∉ d.signatures.keys := by rwa [Table.mem_keys_iff]
  obtain ⟨z, hz, rfl⟩ := hmentions n hn hskip hbare.1
  obtain ⟨g', hg', j', hj', hzj⟩ := mem_bindersOf.1 hz
  rcases List.mem_append.1 hg' with hg' | hg'
  · exact hbare.2 g' hg' j' hj' z hzj rfl
  · obtain rfl := List.mem_singleton.1 hg'
    exact hown ⟨z, List.mem_flatMap.2 ⟨j', hj', hzj⟩, rfl⟩

/-- A group has an identifier for each of its binders and no other. -/
theorem returns_binders (env : Env) (module : String) (g : List Job) :
    Returns (inferGroup env (fun occ => return topName module .value occ) g) fun r =>
      (∀ i ∈ r.2, i.2.name = topName module .value i.1) ∧
        (∀ i ∈ r.2, ∃ y ∈ g.flatMap Job.binders, y.1 = i.1) ∧
          ∀ y ∈ g.flatMap Job.binders, ∃ i ∈ r.2, i.1 = y.1 := by
  let nameOf (occ : String) : CheckM Name := return topName module .value occ
  have hnames : Returns (openGroup env nameOf g) fun o =>
      ∀ i ∈ o.monos, i.2.name = topName module .value i.1 :=
    returns_openGroup env fun _ _ _ _ _ _ => rfl
  have hopen : Returns (openGroup env nameOf g) fun o =>
      (∀ i ∈ o.monos, i.2.name = topName module .value i.1) ∧
        Identifies (g.flatMap Job.binders) o.monos := fun s =>
    ⟨hnames s, identifies_openGroup env nameOf g s⟩
  refine .bind hopen fun o ho s => ?_
  obtain ⟨tvs, poly, hpoly, heq⟩ := closeGroup_fst env o (groupLoc g) s
  rw [heq]
  refine ⟨List.forall_mem_map.2 fun mono hm => (hpoly mono.2).trans (ho.1 mono hm),
    List.forall_mem_map.2 ho.2.binder, fun y hy => ?_⟩
  obtain ⟨i, hi⟩ := ho.2.bound y hy
  exact ⟨_, List.mem_map_of_mem (Table.mem_of_get? hi), rfl⟩

/-- A group whose binders have their places is one signed function, or is generalised. -/
theorem topGroup_of_owns (h : ∀ j ∈ g, d.owns j = true) :
    (∃ j s, g = [.fn j] ∧ d.signatures.get? j.name = some s ∧ topGroup d g =
      (do return ([← checkSigned { globals := d.globals }
        ⟨topName d.globals.module .value j.name, s⟩ j], d))) ∨
    (∀ j, g = [.fn j] → d.signatures.get? j.name = none) ∧ topGroup d g = (do
      let r ← inferGroup { globals := d.globals }
        (fun occ => return topName d.globals.module .value occ) g
      return ([r.1], addIdents d r.2)) := by
  have hall : g.all d.owns = true := List.all_eq_true.2 h
  unfold topGroup
  rw [hall]
  match g with
  | [.fn j] =>
    cases hs : d.signatures.get? j.name with
    | some s =>
      refine .inl ⟨j, s, rfl, hs, ?_⟩
      simp only [hs]
      rfl
    | none =>
      refine .inr ⟨fun j' hj' => ?_, ?_⟩
      · cases hj'
        exact hs
      · simp only [hs]
        rfl
  | [] | [.pat ..] | .fn _ :: _ :: _ | .pat .. :: _ :: _ =>
    exact .inr ⟨fun _ h => by simp at h, rfl⟩

theorem topGroup_of_not_owns (h : ¬ ∀ j ∈ g, d.owns j = true) :
    topGroup d g = (do return ([], d)) := by
  have hall : g.all d.owns = false := Bool.eq_false_iff.2 fun hg => h (List.all_eq_true.1 hg)
  unfold topGroup
  rw [hall]
  rfl

/-- The binders of all jobs have their places. -/
def Owned (start : Declaring) (js : List Job) : Prop :=
  ∀ j ∈ js, ∀ y ∈ j.binders, start.places.get? (.value, y.1) = some y.2

theorem Declaring.Ahead.owns (hd : d.Ahead m bare start) (h : Owned start g) :
    ∀ j ∈ g, d.owns j = true := fun j hj =>
  List.all_eq_true.2 fun y hy => decide_eq_true (hd.tidy.places _ _ (h j hj y hy))

theorem Unchecked.append {n : Name} (h : Unchecked m pre n)
    (hg : ∀ y ∈ g.flatMap Job.binders, topName m.name .value y.1 ≠ n) :
    Unchecked m (pre ++ [g]) n := by
  refine ⟨h.1, fun g' hg' j hj y hy => ?_⟩
  rcases List.mem_append.1 hg' with hg' | hg'
  · exact h.2 g' hg' j hj y hy
  · obtain rfl := List.mem_singleton.1 hg'
    exact hg y (List.mem_flatMap.2 ⟨j, hj, hy⟩)

/-- What a group binds is known once it is checked. -/
theorem returns_ahead_topGroup (hd : d.Ahead m (Unchecked m pre) start) (howned : Owned start g) :
    Returns (topGroup d g) fun r => r.2.Ahead m (Unchecked m (pre ++ [g])) start := by
  rcases topGroup_of_owns (hd.owns howned) with ⟨j, s, rfl, hs, heq⟩ | ⟨-, heq⟩
  · -- What a signed function denotes was declared.
    rw [heq]
    have hsigned : d.signatures.contains j.name = true := Option.isSome_iff_exists.2 ⟨s, hs⟩
    refine .skip fun _ => .pure (hd.mono fun n h => ?_)
    by_cases hn : topName m.name .value j.name = n
    · exact .inl (hn ▸ hd.tidy.signatures j.name hsigned)
    · refine .inr (h.append fun y hy => ?_)
      obtain rfl := List.mem_singleton.1 hy
      exact hn
  · rw [heq, hd.tidy.module]
    refine .bind (returns_binders _ m.name g) fun r hr => .pure ?_
    refine (hd.addIdents hr.1).mono fun n h => .inr (h.1.append fun y hy => ?_)
    obtain ⟨i, hi, heq⟩ := hr.2.2 y hy
    exact heq ▸ h.2 i hi

theorem returns_stage_topGroup (hd : d.Stage c m (Unchecked m pre) start) (howned : Owned start g) :
    Returns (topGroup d g) fun r => r.2.Stage c m (Unchecked m (pre ++ [g])) start := by
  have hahead := returns_ahead_topGroup hd.toAhead howned
  have hserving := returns_topGroup (fun _ ids hd => hd.addIdents ids) hd.toServing g
  exact fun s => ⟨hahead s, hserving s⟩

/-- A group takes no local names from outside. -/
theorem scopes_topGroup (hd : d.Stage c m (Unchecked m pre) start) (howned : Owned start g)
    (hg : Surface.groupsOf (jobs m.bindings) d.signatures.keys = pre ++ g :: post) :
    Scopes E [] (topGroup d g) fun r => ∀ b ∈ r.1, BindScoped c E.answers [] b := by
  let env : Env := { globals := d.globals }
  let K (n : String) : Prop := env.Knows n ∨ ∃ y ∈ g.flatMap Job.binders, y.1 = n
  have hserves := hd.serves
  have hscoping : ∀ j ∈ g, j.Scoping c E K := by
    intro j hj
    obtain ⟨b, -, rfl, hknown⟩ := knows_of_mentions hd.toAhead hg hj
    exact (scoping_job b).mono hknown
  have hconserving : ∀ j ∈ g, j.Conserving := by
    intro j hj
    obtain ⟨b, -, rfl, -⟩ := knows_of_mentions hd.toAhead hg hj
    exact conserving_job b
  rcases topGroup_of_owns (hd.owns howned) with ⟨j, s, rfl, hs, heq⟩ | ⟨-, heq⟩
  · rw [heq]
    have hsigned : d.signatures.contains j.name = true := Option.isSome_iff_exists.2 ⟨s, hs⟩
    have hk : ∀ n, K n → env.Knows n := by
      rintro n (h | ⟨y, hy, rfl⟩)
      · exact h
      · obtain rfl := List.mem_singleton.1 hy
        exact hd.knows fun _ => hsigned
    refine .bind (scopes_checkSigned hserves hk _ (hconserving _ (List.mem_singleton_self _))
      (hscoping _ (List.mem_singleton_self _))) fun b => .pure fun hb => ?_
    exact List.forall_mem_singleton.2 hb
  · rw [heq]
    refine .bind (scopes_inferGroup hserves (fun _ h => h) (fun _ => .pure trivial) hconserving
      hscoping) fun r => .pure fun hr => ?_
    exact List.forall_mem_singleton.2 hr.1

theorem returns_ahead_topGroups {gs : List (List Job)}
    (hd : d.Ahead m (Unchecked m pre) start) (howned : ∀ g ∈ gs, Owned start g) :
    Returns (topGroups d gs) fun r => r.2.Ahead m (Unchecked m (pre ++ gs)) start := by
  induction gs generalizing d pre with
  | nil =>
    rw [List.append_nil]
    exact .pure hd
  | cons g gs ih =>
    obtain ⟨hg, hgs⟩ := List.forall_mem_cons.1 howned
    refine .bind (returns_ahead_topGroup hd hg) fun r hr => ?_
    rw [List.append_cons]
    exact .bind (ih hr hgs) fun r' hr' => .pure hr'

theorem returns_stage_topGroups {gs : List (List Job)}
    (hd : d.Stage c m (Unchecked m pre) start) (howned : ∀ g ∈ gs, Owned start g) :
    Returns (topGroups d gs) fun r => r.2.Stage c m (Unchecked m (pre ++ gs)) start := by
  have hahead := returns_ahead_topGroups hd.toAhead howned
  have hserving := returns_topGroups (fun _ ids hd => hd.addIdents ids) hd.toServing gs
  exact fun s => ⟨hahead s, hserving s⟩

theorem scopes_topGroups {gs : List (List Job)} (hd : d.Stage c m (Unchecked m pre) start)
    (howned : ∀ g ∈ gs, Owned start g)
    (hgs : Surface.groupsOf (jobs m.bindings) start.signatures.keys = pre ++ gs) :
    Scopes E [] (topGroups d gs) fun r => ∀ b ∈ r.1, BindScoped c E.answers [] b := by
  induction gs generalizing d pre with
  | nil => exact .pure fun b hb => absurd hb List.not_mem_nil
  | cons g gs ih =>
    obtain ⟨hg, hrest⟩ := List.forall_mem_cons.1 howned
    have hgroup := scopes_topGroup (E := E) hd hg (hd.signatures ▸ hgs)
    refine hgroup.bind_of (returns_stage_topGroup hd hg) fun r hr => ?_
    refine .bind (ih hr hrest (List.append_cons pre g gs ▸ hgs)) fun r' => .pure fun hr' hr => ?_
    exact List.forall_mem_append.2 ⟨hr, hr'⟩

-- Instances

theorem scopes_methodBinds {env : Env} {A : List Name} (henv : env.Serves c A)
    (hk : ∀ n, env.Knows n) (cls : TypeClass) (i : Instance) (seen : List String)
    {js : List FunJob} (hc : ∀ j ∈ js, j.Conserving)
    (h : ∀ j ∈ js, j.Scoping c E fun _ => True) :
    Scopes E A (methodBinds env cls i seen js) fun r =>
      ∀ b ∈ r.1, BindScoped c E.answers (env.names ++ A) b := by
  induction js generalizing seen with
  | nil => exact .pure fun b hb => absurd hb List.not_mem_nil
  | cons j js ih =>
    obtain ⟨hcj, hcs⟩ := List.forall_mem_cons.1 hc
    obtain ⟨hj, hjs⟩ := List.forall_mem_cons.1 h
    have ih (seen : List String) := ih seen hcs hjs
    unfold methodBinds
    split
    · exact .skip (scopes_report rfl _) fun _ => ih _
    split
    · exact .skip (scopes_report rfl _) fun _ => ih _
    · refine .skip (scopes_rule.localName _ _) fun n => ?_
      refine .bind (scopes_checkSigned henv (fun n _ => hk n) _ hcj hj) fun b => ?_
      exact .bind (ih _) fun r => .pure fun hr hb => List.forall_mem_cons.2 ⟨hb, hr⟩

theorem scopes_instanceBinds (hd : d.Stage c m bare start)
    (hk : ∀ n, Env.Knows { globals := d.globals } n) (x : Instance × Surface.InstanceDecl) :
    Scopes E [] (instanceBinds d.globals x) fun bs => ∀ b ∈ bs, BindScoped c E.answers [] b := by
  unfold instanceBinds
  split
  · refine .bind (scopes_methodBinds hd.serves hk _ _ _ (fun j hj => ?_) fun j hj => ?_) fun r => ?_
    · obtain ⟨b, -, rfl⟩ := List.mem_map.1 hj
      exact conserving_funJob b
    · obtain ⟨b, -, rfl⟩ := List.mem_map.1 hj
      exact fun r hr => (scoping_funJob b r hr).mono fun _ _ => trivial
    · exact .skip (.forM fun m _ => scopes_rule.reportIf _ _ rfl) fun _ => .pure id
  · exact .pure fun b hb => absurd hb List.not_mem_nil

/-- No binding of the module is left out of its groups. -/
theorem not_unchecked_groups (skip : List String) (n : Name) :
    ¬ Unchecked m (Surface.groupsOf (jobs m.bindings) skip) n := by
  rintro ⟨⟨b, hb, y, hy, hname⟩, hchecked⟩
  obtain ⟨g, hg, hj⟩ : ∃ g ∈ Surface.groupsOf (jobs m.bindings) skip, job b ∈ g :=
    Surface.exists_mem_groupsOf (mem_jobs.2 ⟨b, hb, rfl⟩)
  exact hchecked g hg _ hj y (binders_job b ▸ hy) hname.symm

/-- All is known once the bindings of the module are checked. -/
theorem knows_of_groups (hd : d.Ahead m
    (Unchecked m (Surface.groupsOf (jobs m.bindings) start.signatures.keys)) start) (n : String) :
    Env.Knows { globals := d.globals } n :=
  hd.knows fun hbare => absurd hbare (not_unchecked_groups _ _)

theorem Declaring.Ahead.first (hd : start.Ahead m (Defines m) start) :
    start.Ahead m (Unchecked m []) start :=
  hd.mono fun _ h => .inr ⟨h, fun _ hg => absurd hg List.not_mem_nil⟩

theorem Declaring.Stage.first (hd : start.Stage c m (Defines m) start) :
    start.Stage c m (Unchecked m []) start := ⟨hd.toAhead.first, hd.toServing⟩

theorem owned_groups (h : Owned start ((jobs m.bindings).map (·.2))) (skip : List String) :
    ∀ g ∈ Surface.groupsOf (jobs m.bindings) skip, Owned start g := by
  intro g hg j hj
  obtain ⟨x, hx, rfl⟩ := Surface.mem_of_mem_groupsOf hg hj
  exact h _ (List.mem_map_of_mem hx)

theorem returns_ahead_binds (hd : start.Ahead m (Defines m) start)
    (howned : Owned start ((jobs m.bindings).map (·.2)))
    (instances : List (Instance × Surface.InstanceDecl)) :
    Returns (binds start instances m) fun r => r.2.Ahead m
      (Unchecked m (Surface.groupsOf (jobs m.bindings) start.signatures.keys)) start :=
  .bind (returns_ahead_topGroups hd.first (owned_groups howned _)) fun _ hr =>
    .skip fun _ => .pure hr

theorem returns_stage_binds (hd : start.Stage c m (Defines m) start)
    (howned : Owned start ((jobs m.bindings).map (·.2)))
    (instances : List (Instance × Surface.InstanceDecl)) :
    Returns (binds start instances m) fun r => r.2.Stage c m
      (Unchecked m (Surface.groupsOf (jobs m.bindings) start.signatures.keys)) start :=
  .bind (returns_stage_topGroups hd.first (owned_groups howned _)) fun _ hr =>
    .skip fun _ => .pure hr

/-- The bindings of a module take no local names from outside. -/
theorem scopes_binds (hd : start.Stage c m (Defines m) start)
    (howned : Owned start ((jobs m.bindings).map (·.2)))
    (instances : List (Instance × Surface.InstanceDecl)) :
    Scopes E [] (binds start instances m) fun r => ∀ b ∈ r.1, BindScoped c E.answers [] b := by
  have hgs := owned_groups howned start.signatures.keys
  refine (scopes_topGroups hd.first hgs rfl).bind_of (returns_stage_topGroups hd.first hgs)
    fun r hr => ?_
  have hinstances := Scopes.mapM (E := E) (A := []) fun x (_ : x ∈ instances) =>
    scopes_instanceBinds hr (knows_of_groups hr.toAhead) x
  refine .bind hinstances fun bss => .pure fun hbss hr => List.forall_mem_append.2 ⟨hr, ?_⟩
  intro b hb
  obtain ⟨bs, hbs, hb⟩ := List.mem_flatten.1 hb
  obtain ⟨-, -, hall⟩ := hbss.1 bs hbs
  exact hall b hb

-- Modules

variable {imports : List Exports}

theorem ahead_declared (hi : ∀ x ∈ imports, x.Named) :
    (declared m imports).2.Ahead m (Defines m) (declared m imports).2 where
  tidy := (tidy_declared hi).1.restart
  signatures := rfl
  entities := fun _ h => h

theorem stage_declared (hi : ∀ x ∈ imports, x.WellFormed True ∧ x.Named)
    (hc : ∀ n k, (declared m imports).2.globals.entity? n = some (.dataCon k) →
      ∀ k', c.entity? k.name = some (.dataCon k') → k' = k) :
    (declared m imports).2.Stage c m (Defines m) (declared m imports).2 where
  toAhead := ahead_declared fun x hx => (hi x hx).2
  reducing := (sound_declared fun x hx => (hi x hx).1).1.globals.instances
  constructors := hc

theorem owned_declared (hi : ∀ x ∈ imports, x.Named)
    (hok : ∀ r ∈ (declared m imports).2.reports, r.isError = false) :
    Owned (declared m imports).2 ((jobs m.bindings).map (·.2)) := by
  intro j hj y hy
  obtain ⟨x, hx, rfl⟩ := List.mem_map.1 hj
  obtain ⟨b, hb, rfl⟩ := mem_jobs.1 hx
  exact (tidy_declared hi).2 hok b hb y (binders_job b ▸ hy)

section

variable (hi : ∀ x ∈ imports, x.WellFormed True ∧ x.Named)
  (hok : ∀ r ∈ (declared m imports).2.reports, r.isError = false)
include hi hok

theorem stage_elaborate (hc : ∀ n k, (declared m imports).2.globals.entity? n = some (.dataCon k) →
    ∀ k', c.entity? k.name = some (.dataCon k') → k' = k) :
    (elaborate m imports).declared.Stage c m (Unchecked m
      (Surface.groupsOf (jobs m.bindings) (declared m imports).2.signatures.keys))
      (declared m imports).2 :=
  returns_stage_binds (stage_declared hi hc) (owned_declared (fun x hx => (hi x hx).2) hok)
    (declared m imports).1 _

/-- Lowering that knows a module takes no constructor for another than it was declared as: at most a
binding took its name. -/
theorem constructors_declared
    (hown : ∀ n e, (elaborate m imports).declared.globals.entity? n = some e →
      c.entity? n = some e) :
    ∀ n k, (declared m imports).2.globals.entity? n = some (.dataCon k) →
      ∀ k', c.entity? k.name = some (.dataCon k') → k' = k := by
  let start := (declared m imports).2
  let c₀ : Core.Context := ⟨m.name, start.globals.scope, start.globals.entity?⟩
  have hnamed (n : Name) (k : DataCon) (h : start.globals.entity? n = some (.dataCon k)) :
      n = k.name := (Declare.named_of_entity? (tidy_declared fun x hx => (hi x hx).2).1 h).1
  have hd := stage_elaborate (c := c₀) hi hok fun n k hk k' hk' => by
    rw [← hnamed n k hk] at hk'
    exact Entity.dataCon.inj (Option.some.inj (hk'.symm.trans hk))
  intro n k hk k' hk'
  obtain rfl := hnamed n k hk
  obtain ⟨e, he⟩ := Option.isSome_iff_exists.1 (hd.entities k.name (hk ▸ rfl))
  obtain rfl : e = .dataCon k' := Option.some.inj ((hown _ e he).symm.trans hk')
  have hname : k.name = k'.name := (Declare.named_of_entity? hd.tidy he).1
  exact (hd.constructors _ k' he k (hname ▸ hk)).symm

end

/-- What is exported by a module that was compiled is known by names of the top level. -/
theorem Compiled.named {x : Exports} (h : Compiled x) : x.Named := by
  induction h with
  | @intro m imports checked hi hm ih =>
    obtain ⟨hno, -⟩ := of_module_eq_ok hm
    have hi' : ∀ x ∈ imports, x.WellFormed True ∧ x.Named :=
      fun x hx => ⟨(hi x hx).wellFormed, ih x hx⟩
    have hok : ∀ r ∈ (declared m imports).2.reports, r.isError = false :=
      fun r hr => hno r (reports_declared_subset hr)
    let nothing : Core.Context := ⟨m.name, ⟨m.name, []⟩, fun _ => none⟩
    have hd := stage_elaborate (c := nothing) hi' hok fun _ _ _ _ h => by cases h
    rw [eq_of_module_eq_ok hm]
    exact hd.tidy.exports

variable {checked : Checked}

/-- In a module that is accepted, bindings take no local names from outside once holes have given
way to what was found for them. -/
theorem bindScoped_elaborate (hi : ∀ x ∈ imports, Compiled x)
    (hm : module m imports = .ok checked)
    (hown : ∀ n e, checked.globals.entity? n = some e → c.entity? n = some e) :
    ∀ b ∈ (elaborate m imports).binds, BindScoped c (elaborate m imports).answers [] b := by
  obtain ⟨hno, -⟩ := of_module_eq_ok hm
  have hi' : ∀ x ∈ imports, x.WellFormed True ∧ x.Named :=
    fun x hx => ⟨(hi x hx).wellFormed, (hi x hx).named⟩
  have hok : ∀ r ∈ (declared m imports).2.reports, r.isError = false :=
    fun r hr => hno r (reports_declared_subset hr)
  rw [eq_of_module_eq_ok hm] at hown
  let E := (elaborate m imports).state
  let start : State := { reports := (declared m imports).2.reports }
  obtain ⟨hbalanced, hwanted⟩ := balanced_elaborate (m := m) fun x hx => (hi' x hx).1
  have hend : Ends E [] [] E := by
    refine ⟨hbalanced.final hno, List.Subset.refl _, ⟨[], rfl, by simp⟩, fun w hw => ?_⟩
    rw [List.nil_append, hwanted] at hw
    cases hw
  have hbinds := scopes_binds (E := E) (stage_declared hi' (constructors_declared hi' hok hown))
    (owned_declared (fun x hx => (hi' x hx).2) hok) (declared m imports).1
  exact (hbinds.ends [] start (balanced_declared fun x hx => (hi' x hx).1) hend).2

end TypeLens.Check
