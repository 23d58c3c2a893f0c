import TypeLens.Proofs.Checking.Closure
import TypeLens.Proofs.Checking.Coherence
import TypeLens.Proofs.Checking.LocalOccurrences
import TypeLens.Proofs.Checking.Stages

/-!
In a module that is accepted, every variable refers to the innermost binder of its name or to what
its name denotes at the top level. What a group mentions is bound by it, has a signature, or is
defined by a group before it and by no other one, so that it denotes what it does in the end.
-/

namespace TypeLens

/-- The variables in the bindings of a module. -/
def Surface.Module.Writes (m : Surface.Module) (x : String × Span) : Prop :=
  ∃ b ∈ m.bindings, x ∈ b.variables

/-- The variables in the methods of a module's instances. -/
def Surface.Module.WritesMethod (m : Surface.Module) (x : String × Span) : Prop :=
  ∃ i, .inst i ∈ m.decls ∧ ∃ b ∈ i.binds, x ∈ b.variables

theorem Scheme.Closed.substUvars_eq {s : Scheme} (h : s.Closed) (f : UVar → Option Ty) :
    s.substUvars f = s := by
  have hbody : s.body.substUvars f = s.body := by
    refine Ty.substUvars_eq_self fun k hk => ?_
    rw [h.body] at hk
    cases hk
  have hpreds : s.preds.map (fun p => ⟨p.cls, p.arg.substUvars f⟩) = s.preds := by
    refine (List.map_congr_left fun p hp => ?_).trans (List.map_id _)
    obtain ⟨v, -, harg⟩ := h.preds p hp
    rw [harg]
    exact congrArg (Pred.mk p.cls) harg.symm
  rw [Scheme.substUvars, hbody, hpreds]

namespace Check

open Typed (Bind Ident Use)

variable {m : Surface.Module} {start d d' : Declaring} {bare : Name → Prop}
  {pre post : List (List Job)} {g : List Job}

-- What names denote

/-- A name that means something is the only one that its spelling can mean. -/
theorem unqualified_of_resolve {g : Globals} (hg : g.Named bare) {role : Role} {occ : String}
    {n : Name} (h : resolve g .value role occ = .ok n) : g.scope.unqualified n = true := by
  unfold resolve at h
  split at h
  · cases h
  · next x hx =>
    obtain rfl := Except.ok.inj h
    obtain ⟨hspace, hocc, -⟩ := hg.scope occ x (hx ▸ List.mem_singleton_self x)
    rw [Scope.unqualified, hspace, hocc, hx]
    exact beq_self_eq_true _
  · cases h

/-- What is known of a name and does not change any more is what the name denotes in the end. -/
theorem denotes_of_unchanged (hd : d.Ahead m bare start) {S : Name → Prop} (hd' : d.Differs S d')
    {occ : String} (hknown : Env.Knows { globals := d.globals } occ)
    (hsame : ∀ n, n.occ = occ → ¬ S n) :
    Env.Means d'.globals { globals := d.globals } [] occ := by
  refine ⟨rfl, fun _ n hn => ?_⟩
  obtain ⟨hocc, -, -⟩ := hd.tidy.globals.resolve hn
  have hscope : d'.globals.scope.unqualified n = true := by
    rw [Scope.unqualified, hd'.scope]
    exact unqualified_of_resolve hd.tidy.globals hn
  obtain ⟨e, he, hvalue⟩ := (hknown.resolve_left (by rintro ⟨i, hi⟩; cases hi)) n hn
  refine ⟨hocc, hscope, e, he, hvalue, ?_⟩
  rintro i rfl
  exact ⟨i, (hd'.entities n (hsame n hocc)).trans he, rfl⟩

theorem defines_of_mem_bindersOf {skip : List String} {y : String × Span}
    (hy : y ∈ bindersOf (Surface.groupsOf (jobs m.bindings) skip)) :
    Defines m (topName m.name .value y.1) := by
  obtain ⟨g, hg, j, hj, hy⟩ := mem_bindersOf.1 hy
  obtain ⟨x, hx, rfl⟩ := Surface.mem_of_mem_groupsOf hg hj
  obtain ⟨b, hb, rfl⟩ := mem_jobs.1 hx
  exact ⟨b, hb, y, binders_job b ▸ hy, rfl⟩

/-- Where a group mentions a name that it does not bind itself, the name denotes what it does in the
end. -/
theorem means_of_mentions (hs : start.Accepted m) (hd : d.Reaches m pre start)
    (hg : Surface.groupsOf (jobs m.bindings) start.signatures.keys = pre ++ g :: post)
    {j : Job} (hj : j ∈ g) : ∃ b ∈ m.bindings, job b = j ∧ ∀ n ∈ b.mentions,
      (n ∈ start.signatures.keys ∨ ∀ y ∈ g.flatMap Job.binders, y.1 ≠ n) →
        ∀ d', d.Differs (Redefined m start (g :: post)) d' →
          Env.Means d'.globals { globals := d.globals } [] n := by
  obtain ⟨b, hb, rfl, hmentions⟩ := bound_of_mentions hg hj
  refine ⟨b, hb, rfl, fun n hn hown d' hd' => ?_⟩
  have hbefore : n ∉ start.signatures.keys → Defines m (topName m.name .value n) →
      ∃ z ∈ bindersOf pre, z.1 = n := by
    intro hunsigned hbound
    obtain ⟨z, hz, rfl⟩ := hmentions n hn hunsigned hbound
    rw [bindersOf_append, List.mem_append] at hz
    refine ⟨z, hz.resolve_right fun hz => ?_, rfl⟩
    rw [bindersOf_cons, bindersOf, List.flatten_nil, List.flatMap_nil, List.append_nil] at hz
    exact hown.resolve_left hunsigned z hz rfl
  refine denotes_of_unchanged hd.ahead hd' ?_ ?_
  · refine hd.ahead.knows fun hbare => ?_
    rw [hd.ahead.signatures, ← Table.mem_keys_iff]
    by_contra hunsigned
    obtain ⟨z, hz, rfl⟩ := hbefore hunsigned hbare.1
    obtain ⟨g', hg', j', hj', hzj⟩ := mem_bindersOf.1 hz
    exact hbare.2 g' hg' j' hj' z hzj rfl
  · rintro - rfl ⟨g', hg', hgeneral, y, hy, rfl⟩
    have hgroup : g' ∈ Surface.groupsOf (jobs m.bindings) start.signatures.keys :=
      hg ▸ List.mem_append_right pre hg'
    by_cases hsigned : y.1 ∈ start.signatures.keys
    · obtain ⟨f, rfl, hf⟩ := signed_alone hs.signs hgroup hy hsigned
      exact hgeneral f rfl (hf ▸ hsigned)
    · obtain ⟨j', hj', hyj⟩ := List.mem_flatMap.1 hy
      have hlater : y ∈ bindersOf (g :: post) := mem_bindersOf.2 ⟨g', hg', j', hj', hyj⟩
      have hall : y ∈ bindersOf (pre ++ g :: post) := by
        rw [bindersOf_append]
        exact List.mem_append_right _ hlater
      obtain ⟨z, hz, hname⟩ := hbefore hsigned (defines_of_mem_bindersOf (hg ▸ hall))
      have hdistinct := hs.distinct
      rw [hg, bindersOf_append, List.pairwise_append] at hdistinct
      exact hdistinct.2.2 z hz y hlater hname

-- Groups

/-- In a binding of the top level, variables refer to what they should. -/
def Resolved (signed : List String) (G : Globals) (V : String × Span → Prop) (b : Bind) : Prop :=
  ∀ u ∈ b.topUses signed, u.Refers G ∧ V (u.ident.name.occ, u.loc)

theorem Resolved.mono {signed : List String} {G : Globals} {V V' : String × Span → Prop} {b : Bind}
    (h : Resolved signed G V b) (hV : ∀ x, V x → V' x) : Resolved signed G V' b :=
  fun u hu => ⟨(h u hu).1, hV _ (h u hu).2⟩

theorem grants_topGroup (hs : start.Accepted m) (hd : d.Reaches m pre start)
    (hg : Surface.groupsOf (jobs m.bindings) start.signatures.keys = pre ++ g :: post) :
    Grants (topGroup d g) fun r => ∀ d', d.Differs (Redefined m start (g :: post)) d' →
      ∀ b ∈ r.1, Resolved start.signatures.keys d'.globals m.Writes b := by
  let signed := start.signatures.keys
  let env : Env := { globals := d.globals }
  let V (x : String × Span) : Prop := m.Writes x ∧
    ((x.1 ∈ signed ∨ ∀ y ∈ g.flatMap Job.binders, y.1 ≠ x.1) →
      ∀ d', d.Differs (Redefined m start (g :: post)) d' → env.Means d'.globals [] x.1)
  have hexplained : ∀ j ∈ g, j.Explained V := by
    intro j hj
    obtain ⟨b, hb, rfl, hmeans⟩ := means_of_mentions hs hd hg hj
    refine (explained_job b).mono fun x hx => ⟨⟨b, hb, hx⟩, fun hown => hmeans x.1 ?_ hown⟩
    rw [Surface.Binding.mentions_eq]
    exact List.mem_map_of_mem hx
  have hgroup : g ∈ Surface.groupsOf (jobs m.bindings) signed :=
    hg ▸ List.mem_append_right pre (List.mem_cons_self ..)
  have howned : Owned start g := owned_groups hs.owned signed g hgroup
  rcases topGroup_of_owns (hd.ahead.owns howned) with ⟨j, s, rfl, hj, heq⟩ | ⟨hunsigned, heq⟩
  · rw [heq]
    have hname : j.name ∈ signed := by
      rw [Table.mem_keys_iff, ← hd.ahead.signatures]
      exact Option.isSome_iff_exists.2 ⟨s, hj⟩
    have hown (x : String × Span) :
        x.1 ∈ signed ∨ ∀ y ∈ [Job.fn j].flatMap Job.binders, y.1 ≠ x.1 :=
      or_iff_not_imp_left.2 fun hx => List.forall_mem_singleton.2 fun heq => hx (heq ▸ hname)
    refine .bind (grants_checkSigned env _ (hexplained _ (List.mem_singleton_self _))) fun b =>
      .pure fun hb d' hd' => List.forall_mem_singleton.2 fun u hu => ?_
    obtain ⟨hrefers, hwritten, -⟩ := hb.uses d'.globals (fun x hx => hx.2 (hown x) d' hd') signed
      (.inr hname) u hu
    exact ⟨hrefers, hwritten⟩
  · rw [heq]
    let nameOf (occ : String) : CheckM Name := return topName d.globals.module .value occ
    have hquiet (occ : String) : Quiet (nameOf occ) := .pure _
    have hinfer := grants_inferGroup env hquiet (fun occ => .pure rfl) hexplained
    refine (hinfer.of_returns (returns_binders env d.globals.module g)).bind fun r => .pure ?_
    rintro ⟨hr, hnames, hbinder, -⟩ d' hd'
    refine List.forall_mem_singleton.2 fun u hu => ?_
    rw [hr.topUses signed fun i hi => ?_] at hu
    · obtain ⟨hrefers, hwritten, -⟩ := hr.uses d'.globals []
        (fun x hx hown => hx.2 (.inr hown) d' hd') u hu
      exact ⟨hrefers, hwritten⟩
    · rw [hnames i hi]
      refine ⟨not_isLocal_topName, fun hsigned => ?_⟩
      obtain ⟨y, hy, hocc⟩ := hbinder i hi
      obtain ⟨f, hf, hname⟩ := signed_alone hs.signs hgroup hy (hocc ▸ hsigned)
      have hnone := hunsigned f hf
      rw [hd.ahead.signatures, Table.get?_eq_none_iff, hname] at hnone
      exact hnone (hocc ▸ hsigned)

theorem grants_topGroups {gs : List (List Job)} (hs : start.Accepted m)
    (hd : d.Reaches m pre start)
    (hgs : Surface.groupsOf (jobs m.bindings) start.signatures.keys = pre ++ gs) :
    Grants (topGroups d gs) fun r =>
      ∀ b ∈ r.1, Resolved start.signatures.keys r.2.globals m.Writes b := by
  induction gs generalizing d pre with
  | nil => exact .pure (by simp)
  | cons g gs ih =>
    have howned : ∀ g' ∈ g :: gs, Owned start g' := fun g' hg' =>
      owned_groups hs.owned _ g' (hgs ▸ List.mem_append_right pre hg')
    obtain ⟨hg, hrest⟩ := List.forall_mem_cons.1 howned
    refine (grants_topGroup hs hd hgs).bind_of (returns_reaches_topGroup hs hd hg) fun r hr => ?_
    have hlater := (ih hr.1 (List.append_cons pre g gs ▸ hgs)).of_returns
      (returns_reaches_topGroups hs hr.1 hrest)
    refine hlater.bind fun r' => .pure ?_
    rintro ⟨hr', -, hdiffers⟩ hg
    exact List.forall_mem_append.2 ⟨hg r'.2 (hr.2.redefined hdiffers), hr'⟩

-- Instances

variable {V : String × Span → Prop} {G : Globals}

theorem grants_localName (env : Env) (occ : String) :
    Grants (localName env occ) Name.IsLocal := by
  have hlocal : Returns (localName env occ) Name.IsLocal := fun s => by
    show ((s.uniques + 1 : Nat) : Int) ≠ 0
    omega
  exact ((Grants.of_quiet (quiet_localName env occ)).of_returns hlocal).weaken fun _ h => h.2

theorem grants_methodBinds {env : Env} (hmeans : ∀ occ, env.Means G [] occ)
    (signed : List String) (c : TypeClass) (i : Instance) (seen : List String) {js : List FunJob}
    (h : ∀ j ∈ js, j.Explained V) :
    Grants (methodBinds env c i seen js) fun r => ∀ b ∈ r.1, Resolved signed G V b := by
  induction js generalizing seen with
  | nil => exact .pure (by simp)
  | cons j js ih =>
    obtain ⟨hj, hjs⟩ := List.forall_mem_cons.1 h
    unfold methodBinds
    split
    · exact .skip (grants_report _ _) fun _ => ih _ hjs
    split
    · exact .skip (grants_report _ _) fun _ => ih _ hjs
    · refine .bind (grants_localName env j.name) fun n => ?_
      refine .bind (grants_checkSigned env _ hj) fun b => .bind (ih _ hjs) fun r => .pure ?_
      intro hr hb hn
      exact List.forall_mem_cons.2 ⟨hb.uses G (fun x _ => hmeans x.1) signed (.inl hn), hr⟩

theorem grants_instanceBinds (hmeans : ∀ occ, Env.Means G { globals := G } [] occ)
    (signed : List String) (x : Instance × Surface.InstanceDecl) (hx : .inst x.2 ∈ m.decls) :
    Grants (instanceBinds G x) fun bs =>
      ∀ b ∈ bs, Resolved signed G m.WritesMethod b := by
  have hexplained : ∀ j ∈ x.2.binds.map funJob, j.Explained m.WritesMethod :=
    List.forall_mem_map.2 fun b hb r hr =>
      (explained_funJob b r hr).mono fun v hv => ⟨x.2, hx, b, hb, hv⟩
  unfold instanceBinds
  split
  · refine .bind (grants_methodBinds hmeans signed _ _ _ hexplained) fun r => ?_
    exact .skip (.forM fun _ _ => .of_quiet (quiet_reportIf _ _ _)) fun _ => .pure id
  · exact .pure (by simp)

theorem grants_binds (hs : start.Accepted m) {instances : List (Instance × Surface.InstanceDecl)}
    (hinstances : ∀ x ∈ instances, .inst x.2 ∈ m.decls) :
    Grants (binds start instances m) fun r =>
      ∀ b ∈ r.1, Resolved start.signatures.keys r.2.globals (· ∈ m.variables) b := by
  have hfirst : start.Reaches m [] start := ⟨hs.ahead.first, rfl⟩
  have hgroups := returns_reaches_topGroups hs hfirst (owned_groups hs.owned start.signatures.keys)
  refine (grants_topGroups hs hfirst rfl).bind_of hgroups fun r hr => ?_
  have hmeans (occ : String) : Env.Means r.2.globals { globals := r.2.globals } [] occ :=
    denotes_of_unchanged (S := fun _ => False) hr.1.ahead (.refl _)
      (knows_of_groups hr.1.ahead occ) fun _ _ h => h
  refine .bind (.mapM fun x hx => grants_instanceBinds hmeans start.signatures.keys x
    (hinstances x hx)) fun bss => .pure fun hbss htop => ?_
  refine List.forall_mem_append.2 ⟨fun b hb => (htop b hb).mono ?_, fun b hb => ?_⟩
  · rintro x ⟨b, hb, hx⟩
    exact Surface.mem_variables.2 (.inl ⟨b, Declare.mem_bindings.1 hb, hx⟩)
  · obtain ⟨bs, hbs, hb⟩ := List.mem_flatten.1 hb
    obtain ⟨x, -, hresolved⟩ := hbss bs hbs
    exact (hresolved b hb).mono fun x hx => Surface.mem_variables.2 (.inr hx)

-- The final tree

variable {imports : List Exports} {checked : Checked}

/-- What is known is what is exported or what was known before any declaration. -/
theorem inductive_exported : Inductive m true fun d => ∀ n e, d.globals.entity? n = some e →
    d.exports.entities.get? n = some e ∨
      (Declaring.initial m imports).globals.entity? n = some e := by
  intro d d' h hd
  have hput (e : Entity) : ∀ n e', (d.globals.entities.put e.name e).get? n = some e' →
      (d.exports.entities.put e.name e).get? n = some e' ∨
        (Declaring.initial m imports).globals.entity? n = some e' := by
    intro n e' he'
    rcases Table.eq_or_of_get?_put he' with ⟨rfl, rfl⟩ | ⟨hne, he'⟩
    · exact .inl (Table.get?_put_self ..)
    · rw [Table.get?_put_of_ne hne]
      exact hd n e' he'
  cases h with
  | report | bind | inst | fixity => exact hd
  | wireIn | declare | complete | sign | identify => exact hput _

theorem Compiled.closed {x : Exports} (h : Compiled x) : x.Closed := by
  cases h with
  | intro _ hm =>
    rw [eq_of_module_eq_ok hm]
    exact closed_elaborate _ _

/-- All that is known before any declaration is closed. -/
theorem closed_initial (hi : ∀ x ∈ imports, Compiled x) :
    ∀ p ∈ (Declaring.initial m imports).globals.entities, p.2.Closed := by
  refine initial_of_imported (J := fun g => ∀ p ∈ g.entities, p.2.Closed)
    (fun x hx e he g hg => ?_) (fun _ _ _ _ _ hg => hg) (fun _ _ hg => hg) (List.forall_mem_nil _)
  obtain ⟨p, hp, rfl⟩ := List.mem_map.1 he
  exact Table.forall_mem_put hg ((hi x hx).closed.entities p hp)

/-- All that is known in a module is closed. -/
theorem closed_globals (hi : ∀ x ∈ imports, Compiled x) {n : Name} {e : Entity}
    (h : (elaborate m imports).declared.globals.entity? n = some e) : e.Closed := by
  rcases (elaborated_of_inductive inductive_exported fun _ _ => .inr).2 n e h with h | h
  · exact (closed_elaborate m imports).entities _ (Table.mem_of_get? h)
  · exact closed_initial hi _ (Table.mem_of_get? h)

section

variable (hi : ∀ x ∈ imports, Compiled x) (hm : module m imports = .ok checked)
include hi hm

theorem accepted_of_module : (declared m imports).2.Accepted m := by
  obtain ⟨hno, -⟩ := of_module_eq_ok hm
  exact accepted_declared (fun x hx => (hi x hx).named) fun r hr =>
    hno r (reports_declared_subset hr)

theorem not_isLocal_of_known {n : Name} {e : Entity}
    (h : (elaborate m imports).declared.globals.entity? n = some e) : ¬ n.IsLocal := by
  have hstart := accepted_of_module hi hm
  have hahead := returns_ahead_binds hstart.ahead hstart.owned (declared m imports).1
    { reports := (declared m imports).2.reports }
  obtain ⟨hname, hnamed⟩ := Declare.named_of_entity? hahead.tidy h
  rw [hname]
  exact hnamed.top

/-- Before the tree is final, its variables refer to what they should already. -/
theorem resolved_elaborate : ∀ b ∈ (elaborate m imports).binds,
    Resolved (declared m imports).2.signatures.keys (elaborate m imports).declared.globals
      (· ∈ m.variables) b := by
  obtain ⟨hno, -⟩ := of_module_eq_ok hm
  have hstart := accepted_of_module hi hm
  have hinstances : ∀ x ∈ (declared m imports).1, .inst x.2 ∈ m.decls := fun x hx =>
    (sublist_declared m imports).subset (List.mem_map_of_mem hx)
  exact (grants_binds hstart hinstances).grants { reports := (declared m imports).2.reports } hno

/-- In a module that is accepted, a variable is that of the innermost binder of its name around it.
If there is none, it is the only top-level name that its spelling can mean, and it has the scheme of
what that name denotes. So no variable got a name and a type of its own for want of anything that is
known of it. -/
theorem uses_refer :
    ∀ b ∈ checked.binds, ∀ u ∈ b.topUses (declared m imports).2.signatures.keys,
      u.Refers checked.globals ∧ (u.ident ∈ u.around ∨ ¬ u.ident.name.IsLocal) ∧
        (u.ident.name.occ, u.loc) ∈ m.variables := by
  obtain ⟨-, hbinds⟩ := of_module_eq_ok hm
  let a := (elaborate m imports).answers
  have hglobals : checked.globals = (elaborate m imports).declared.globals := by
    rw [eq_of_module_eq_ok hm]
    rfl
  intro b hb u hu
  rw [hbinds, binds_eq_map] at hb
  obtain ⟨b', hb', rfl⟩ := List.mem_map.1 hb
  rw [Typed.topUses_bind] at hu
  obtain ⟨u', hu', rfl⟩ := List.mem_map.1 hu
  obtain ⟨hrefers, hwritten⟩ := resolved_elaborate hi hm b' hb' u' hu'
  have hfinal : (a.use u').Refers checked.globals := by
    rw [hglobals]
    exact hrefers.use a fun n x hx => Scheme.Closed.substUvars_eq (closed_globals hi hx) _
  refine ⟨hfinal, hfinal.bound_or_known.imp_right fun ⟨x, hx⟩ => ?_, hwritten⟩
  exact not_isLocal_of_known hi hm (hglobals ▸ hx)

end

/-- Functions and a pattern that refer to each other, one of them with a signature, and names that
hide others. -/
def recursiveText : String :=
  "module A\nf x = g p x\nC p q = C N (h q)\nh x = f x\ng :: T -> T -> T\n" ++
  "g N y = let { x = w y ; w y = h x } in x\ng x y = g y x\ndata T = N | C T T"

theorem uses_refer_recursiveText :
    let m := ofText recursiveText
    let checked := (run m []).checked
    let signed := (declared m []).2.signatures.keys
    module m [] = .ok checked ∧
    (checked.binds.flatMap (·.topUses signed)).map (·.ident.name.occ) =
      ["g", "p", "x", "h", "q", "f", "x", "w", "y", "h", "x", "x", "g", "y", "x"] ∧
    ∀ b ∈ checked.binds, ∀ u ∈ b.topUses signed,
      u.Refers checked.globals ∧ (u.ident ∈ u.around ∨ ¬ u.ident.name.IsLocal) ∧
        (u.ident.name.occ, u.loc) ∈ m.variables := by
  intro m checked signed
  have hm : module m [] = .ok checked := module_eq_run (by decide +kernel)
  exact ⟨hm, by decide +kernel, uses_refer (by simp) hm⟩

end Check

end TypeLens
