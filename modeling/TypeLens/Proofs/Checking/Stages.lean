import TypeLens.Proofs.Checking.Families

/-!
What is known at the top level from one binding group to the next. Names stay in scope as they are,
and only what a group defines comes to denote something else.
-/

namespace TypeLens

namespace Scope

variable {s : Scope} {d x : Declared} {space : Namespace} {occ : String}

theorem lookup_add (s : Scope) (d : Declared) (space : Namespace) (occ : String) :
    (s.add d).lookup space occ =
      if (d.name.space, d.name.occ) = (space, occ) then
        merge s.module (s.lookup space occ) d
      else s.lookup space occ := by
  unfold add lookup
  dsimp only
  rw [Table.get?_put]
  split
  · next hkey =>
    obtain ⟨hspace, hocc⟩ := Prod.mk.inj hkey
    rw [hspace, hocc]
    rfl
  · rfl

/-- A name that is in scope already changes nothing. -/
theorem lookup_add_of_mem (h : ∃ x ∈ s.lookup d.name.space d.name.occ, x.name = d.name) :
    (s.add d).lookup = s.lookup := by
  funext space occ
  rw [lookup_add]
  split
  · next hkey =>
    obtain ⟨rfl, rfl⟩ := Prod.mk.inj hkey
    obtain ⟨x, hx, hname⟩ := h
    exact if_pos (List.any_eq_true.2 ⟨x, hx, by simpa using hname⟩)
  · rfl

/-- Nothing hides a module's own name. -/
theorem mem_lookup_add_of_own (hx : x ∈ s.lookup space occ) (hown : x.name.module = s.module)
    (d : Declared) : x ∈ (s.add d).lookup space occ := by
  rw [lookup_add]
  split
  · unfold merge
    split
    · exact hx
    split
    · exact List.mem_append_left _ (List.mem_filter.2 ⟨hx, beq_iff_eq.2 hown⟩)
    · rw [if_pos (List.any_eq_true.2 ⟨x, hx, by simpa using hown⟩)]
      exact hx
  · exact hx

theorem exists_mem_lookup_add (hown : d.name.module = s.module) :
    ∃ x ∈ (s.add d).lookup d.name.space d.name.occ, x.name = d.name := by
  rw [lookup_add, if_pos rfl]
  unfold merge
  split
  · next hany =>
    obtain ⟨x, hx, hname⟩ := List.any_eq_true.1 hany
    exact ⟨x, hx, beq_iff_eq.1 hname⟩
  · rw [if_pos (beq_iff_eq.2 hown)]
    exact ⟨d, List.mem_append_right _ (List.mem_singleton_self d), rfl⟩

/-- Values that the module `home` declares are in scope. -/
structure Shows (home : String) (places : Table (Namespace × String) Span) (s : Scope) : Prop where
  module : s.module = home
  own : ∀ occ, places.contains (.value, occ) = true →
    ∃ x ∈ s.lookup .value occ, x.name = Check.topName home .value occ

variable {home : String} {places : Table (Namespace × String) Span}

theorem Shows.add (h : s.Shows home places) (d : Declared) : (s.add d).Shows home places where
  module := h.module
  own occ hocc := by
    obtain ⟨x, hx, hname⟩ := h.own occ hocc
    have hown : x.name.module = s.module := (congrArg Name.module hname).trans h.module.symm
    exact ⟨x, mem_lookup_add_of_own hx hown d, hname⟩

theorem Shows.declare (h : s.Shows home places)
    (hname : d.name = Check.topName home d.name.space d.name.occ) (loc : Span) :
    (s.add d).Shows home (places.put (d.name.space, d.name.occ) loc) where
  module := h.module
  own occ hocc := by
    rcases Table.contains_put.1 hocc with hkey | hocc
    · have hown : d.name.module = s.module := (congrArg Name.module hname).trans h.module.symm
      obtain ⟨x, hx, hx'⟩ := exists_mem_lookup_add hown
      obtain ⟨hspace, hocc⟩ := Prod.mk.inj hkey
      rw [hspace, hocc] at hx hname
      exact ⟨x, hx, hx'.trans hname⟩
    · exact (h.add d).own occ hocc

end Scope

namespace Check

variable {m : Surface.Module} {start d d' : Declaring}

theorem inductive_shows : Inductive m true fun d => d.globals.scope.Shows m.name d.places := by
  intro d d' h hd
  cases h with
  | report | inst | fixity => exact hd
  | @wireIn _ e he hm =>
    have htop : ∀ e ∈ Declare.listEntities,
        e.name = topName preludeModule e.name.space e.name.occ := by decide
    exact hd.declare (d := ⟨e.name, e.loc⟩) (hm ▸ htop e he) e.loc
  | @declare _ space occ e hname he hplace =>
    have hd' := hd.declare (d := ⟨e.name, e.loc⟩) (by rw [hname]; rfl) e.loc
    dsimp only at hd'
    rw [hname] at hd'
    dsimp only
    rw [Globals.addEntity, hname]
    exact hd'.add _
  | complete | sign | identify => exact hd.add _
  | @bind _ b y hb hy hplace => exact hd.declare (d := ⟨topName m.name .value y.1, y.2⟩) rfl y.2

theorem shows_initial (m : Surface.Module) (imports : List Exports) :
    (Declaring.initial m imports).globals.scope.Shows m.name
      (Declaring.initial m imports).places where
  module := module_initial
  own occ h := by cases h

-- Signatures

/-- Only functions have signatures. -/
def SignsFunctions (m : Surface.Module) (signed : List String) : Prop :=
  ∀ b ∈ m.bindings, ∀ n ∈ b.names, n ∈ signed → ∃ f, b = .fn f

theorem fn_of_signatureProblem? {signed : List String} {occ : String}
    (h : Declare.signatureProblem? m signed occ = none) :
    ∀ b ∈ m.bindings, occ ∈ b.names → ∃ f, b = .fn f := by
  unfold Declare.signatureProblem? at h
  split at h
  · cases h
  split at h
  · cases h
  · next hpat =>
    intro b hb hocc
    cases b with
    | fn f => exact ⟨f, rfl⟩
    | pat b =>
      refine absurd (List.any_eq_true.2 ⟨Surface.Binding.pat b, hb, ?_⟩) hpat
      exact List.contains_iff_mem.2 hocc

theorem inductive_signsFunctions :
    Inductive m true fun d => SignsFunctions m d.signatures.keys := by
  intro d d' h hd
  cases h with
  | @sign _ occ s loc hproblem =>
    intro b hb n hn hsigned
    rw [Table.mem_keys_iff, Table.contains_put, ← Table.mem_keys_iff] at hsigned
    rcases hsigned with rfl | hsigned
    · exact fn_of_signatureProblem? hproblem b hb hn
    · exact hd b hb n hn hsigned
  | _ => exact hd

theorem jobs_eq (bs : List Surface.Binding) :
    jobs bs = bs.map fun b => (b.dependencies, job b) := by
  induction bs with
  | nil => simp [jobs]
  | cons b bs ih => simp [jobs, ih]

/-- A function with a signature is a group of its own. -/
theorem signed_alone {signed : List String} (hm : SignsFunctions m signed) {g : List Job}
    (hg : g ∈ Surface.groupsOf (jobs m.bindings) signed) {y : String × Span}
    (hy : y ∈ g.flatMap Job.binders) (hsigned : y.1 ∈ signed) :
    ∃ f, g = [.fn f] ∧ f.name = y.1 := by
  obtain ⟨is, his, rfl⟩ := List.mem_map.1 hg
  obtain ⟨j, hj, hy⟩ := List.mem_flatMap.1 hy
  obtain ⟨i, hi, x, hx, rfl⟩ := Surface.mem_group.1 hj
  rw [jobs_eq, List.getElem?_map] at hx
  obtain ⟨b, hb, rfl⟩ := Option.map_eq_some_iff.1 hx
  rw [binders_job] at hy
  have hname : y.1 ∈ b.names := List.mem_map_of_mem hy
  obtain ⟨f, rfl⟩ := hm b (List.mem_of_getElem? hb) y.1 hname hsigned
  have hdependencies : (jobs m.bindings).map (·.1) =
      m.bindings.map Surface.Binding.dependencies := by
    rw [jobs_eq, List.map_map]
    rfl
  rw [hdependencies] at his
  have hf : y.1 = f.name := List.mem_singleton.1 hname
  have hsingle : is = [i] := by
    refine (Surface.isGrouping_groupIndices m.bindings signed).eq_singleton his hi hb fun n hn => ?_
    have hn : n = f.name := List.mem_singleton.1 hn
    rwa [hn, ← hf]
  refine ⟨funJob f, ?_, ?_⟩
  · rw [hsingle, List.filterMap_cons, List.filterMap_nil, jobs_eq, List.getElem?_map, hb]
    simp [job]
  · rw [hf]
    cases f
    rfl

-- Groups

/-- Two stages differ at most in what the names in `S` denote. -/
structure Declaring.Differs (S : Name → Prop) (d d' : Declaring) : Prop where
  scope : d'.globals.scope.lookup = d.globals.scope.lookup
  entities : ∀ n, ¬ S n → d'.globals.entity? n = d.globals.entity? n

namespace Declaring.Differs

variable {S S' : Name → Prop} {d'' : Declaring}

theorem refl (d : Declaring) : d.Differs S d := ⟨rfl, fun _ _ => rfl⟩

theorem trans (h : d.Differs S d') (h' : d'.Differs S' d'') :
    d.Differs (fun n => S n ∨ S' n) d'' where
  scope := h'.scope.trans h.scope
  entities n hn :=
    (h'.entities n fun hs => hn (.inr hs)).trans (h.entities n fun hs => hn (.inl hs))

theorem mono (h : d.Differs S d') (hS : ∀ n, S n → S' n) : d.Differs S' d' :=
  ⟨h.scope, fun n hn => h.entities n fun hs => hn (hS n hs)⟩

end Declaring.Differs

/-- What is defined by a group that is generalised. -/
def Redefines (home : String) (signed : List String) (g : List Job) (n : Name) : Prop :=
  (∀ f, g = [.fn f] → f.name ∉ signed) ∧
    ∃ y ∈ g.flatMap Job.binders, topName home .value y.1 = n

theorem differs_addIdents {ids : Bound} {S : Name → Prop}
    (hids : ∀ i ∈ ids, S i.2.name ∧ ∃ x ∈ d.globals.scope.lookup i.2.name.space i.2.name.occ,
      x.name = i.2.name) : d.Differs S (addIdents d ids) := by
  induction ids generalizing d with
  | nil => exact .refl d
  | cons i ids ih =>
    obtain ⟨⟨hi, hscope⟩, hids⟩ := List.forall_mem_cons.1 hids
    let e : Entity := .ident
      ⟨i.2.name, (d.places.get? (.value, i.1)).getD .unknown, i.2.scheme, none⟩
    let d₁ : Declaring := { d with
      globals := d.globals.addEntity e
      exports := d.exports.addEntity e }
    have hlookup : d₁.globals.scope.lookup = d.globals.scope.lookup :=
      Scope.lookup_add_of_mem (d := ⟨e.name, e.loc⟩) hscope
    have hstep : d.Differs S d₁ := by
      refine ⟨hlookup, fun n hn => Table.get?_put_of_ne (fun heq => hn ?_) _ _⟩
      exact (show e.name = n from heq) ▸ hi
    refine (hstep.trans (ih (d := d₁) fun i' hi' => ?_)).mono fun n hn => hn.elim id id
    rw [hlookup]
    exact hids i' hi'

-- Binders

namespace Declare

variable {bare : Name → Prop}

/-- Without errors, no binder has a name that was declared before. -/
theorem fresh_binders {ys : List (String × Span)}
    (hbare : ∀ y ∈ ys, bare (topName m.name .value y.1)) (hd : d.Tidy m bare start)
    (hok : ∀ r ∈ ((ys.forM fun y => do let _ ← define .value y.1 y.2).run d).2.reports,
      r.isError = false) :
    (ys.map fun y => (Namespace.value, y.1)).Nodup ∧
      ∀ k ∈ ys.map fun y => (Namespace.value, y.1), d.places.get? k = none ∧
        ((ys.forM fun y => do let _ ← define .value y.1 y.2).run d).2.places.contains k = true := by
  induction ys generalizing d start with
  | nil => exact ⟨.nil, List.forall_mem_nil _⟩
  | cons y ys ih =>
    obtain ⟨hy, hys⟩ := List.forall_mem_cons.1 hbare
    let d₁ := ((define .value y.1 y.2).run d).2
    have hd₁ : d₁.Tidy m bare d := (preserves_binder hy d hd.restart).1
    have hd' : ((ys.forM fun y => do let _ ← define .value y.1 y.2).run d₁).2.Tidy m bare d₁ :=
      (Preserves.forM (fun y hy => preserves_binder (hys y hy)) d₁ hd₁.restart).1
    obtain ⟨hnodup, hfresh⟩ := ih hys hd₁ hok
    have hnew : d.places.get? (.value, y.1) = none ∧
        d₁.places.get? (.value, y.1) = some y.2 := by
      cases hplace : d.places.get? (.value, y.1) with
      | some previous =>
        have hrun : (define .value y.1 y.2).run d = (none, _) := run_define_of_some hplace
        have heq : d₁ = _ := congrArg Prod.snd hrun
        cases hok ⟨.declaredTwice y.1 previous, y.2⟩ (hd'.reports (heq ▸ List.mem_cons_self ..))
      | none =>
        have hrun : (define .value y.1 y.2).run d = (some _, _) := run_define_of_none hplace
        have heq : d₁ = _ := congrArg Prod.snd hrun
        rw [heq]
        exact ⟨rfl, Table.get?_put_self ..⟩
    rw [List.map_cons]
    refine ⟨List.nodup_cons.2 ⟨fun hmem => ?_, hnodup⟩, List.forall_mem_cons.2 ⟨⟨hnew.1, ?_⟩, ?_⟩⟩
    · cases hnew.2.symm.trans (hfresh _ hmem).1
    · exact Option.isSome_iff_exists.2 ⟨_, hd'.places _ _ hnew.2⟩
    · intro k hk
      refine ⟨?_, (hfresh k hk).2⟩
      cases hold : d.places.get? k with
      | none => rfl
      | some l => cases (hd₁.places k l hold).symm.trans (hfresh k hk).1

theorem fresh_valueNames {decls : List Surface.Decl} (hm : decls ⊆ m.decls)
    (hd : d.Tidy m (Defines m) start)
    (hok : ∀ r ∈ ((decls.forM valueNames).run d).2.reports, r.isError = false) :
    (decls.flatMap valueKeys).Nodup ∧ ∀ k ∈ decls.flatMap valueKeys, d.places.get? k = none := by
  induction decls generalizing d start with
  | nil => exact ⟨.nil, List.forall_mem_nil _⟩
  | cons decl decls ih =>
    obtain ⟨hdecl, hdecls⟩ := List.cons_subset.1 hm
    let d₁ := ((valueNames decl).run d).2
    have hd₁ : d₁.Tidy m (Defines m) d := (preserves_valueNames hdecl d hd.restart).1
    have hd' : ((decls.forM valueNames).run d₁).2.Tidy m (Defines m) d₁ :=
      (Preserves.forM (fun decl h => preserves_valueNames (hdecls h)) d₁ hd₁.restart).1
    obtain ⟨hnodup, hfresh⟩ := ih hdecls hd₁ hok
    have hold : ∀ k ∈ decls.flatMap valueKeys, d.places.get? k = none := by
      intro k hk
      cases hold : d.places.get? k with
      | none => rfl
      | some l => cases (hd₁.places k l hold).symm.trans (hfresh k hk)
    have hkeys : (valueKeys decl).Nodup ∧ ∀ k ∈ valueKeys decl,
        d.places.get? k = none ∧ d₁.places.contains k = true := by
      cases decl with
      | bind b =>
        have hbare : ∀ y ∈ b.binders, Defines m (topName m.name .value y.1) :=
          fun y hy => ⟨b, mem_bindings.2 hdecl, y, hy, rfl⟩
        exact fresh_binders hbare hd fun r hr => hok r (hd'.reports hr)
      | _ => exact ⟨.nil, List.forall_mem_nil _⟩
    rw [List.flatMap_cons, List.nodup_append]
    refine ⟨⟨hkeys.1, hnodup, fun k hk k' hk' heq => ?_⟩, List.forall_mem_append.2
      ⟨fun k hk => (hkeys.2 k hk).1, hold⟩⟩
    have hcontains := (hkeys.2 k hk).2
    rw [Table.contains, heq, hfresh k' hk'] at hcontains
    cases hcontains

end Declare

variable {imports : List Exports}

/-- No two binders of a module that is accepted have the same name. -/
theorem distinct_bindings (hi : ∀ x ∈ imports, x.Named)
    (hok : ∀ r ∈ (declared m imports).2.reports, r.isError = false) :
    ((m.bindings.flatMap Surface.Binding.binders).map (·.1)).Nodup := by
  obtain ⟨d, hd, hdeclared⟩ := exists_valueNames (m := m) hi
  obtain ⟨hnodup, -⟩ := Declare.fresh_valueNames (List.Subset.refl _) hd
    fun r hr => hok r (hdeclared.reports hr)
  have hkeys : m.decls.flatMap Declare.valueKeys =
      ((m.bindings.flatMap Surface.Binding.binders).map (·.1)).map (Namespace.value, ·) := by
    unfold Surface.Module.bindings
    induction m.decls with
    | nil => rfl
    | cons decl decls ih =>
      cases decl with
      | bind b =>
        rw [List.flatMap_cons, ih]
        simp [Declare.valueKeys]
      | _ => exact ih
  rw [hkeys] at hnodup
  exact hnodup.of_map _

theorem distinct_groups (hi : ∀ x ∈ imports, x.Named)
    (hok : ∀ r ∈ (declared m imports).2.reports, r.isError = false) (skip : List String) :
    (bindersOf (Surface.groupsOf (jobs m.bindings) skip)).Pairwise fun x y => x.1 ≠ y.1 := by
  have hperm := (Surface.flatten_groupsOf_perm (jobs m.bindings) skip).flatMap_right Job.binders
  have hbinders : ((jobs m.bindings).map (·.2)).flatMap Job.binders =
      m.bindings.flatMap Surface.Binding.binders := by
    rw [jobs_eq, List.map_map, List.flatMap_map]
    exact List.flatMap_congr fun b _ => binders_job b
  rw [hbinders] at hperm
  have hnodup : ((bindersOf (Surface.groupsOf (jobs m.bindings) skip)).map (·.1)).Nodup :=
    (hperm.map (·.1)).nodup_iff.2 (distinct_bindings hi hok)
  exact List.pairwise_map.1 hnodup

-- Stages

/-- What is declared of a module if no error is reported. -/
structure Declaring.Accepted (m : Surface.Module) (start : Declaring) : Prop where
  ahead : start.Ahead m (Defines m) start
  owned : Owned start ((jobs m.bindings).map (·.2))
  shows : start.globals.scope.Shows m.name start.places
  signs : SignsFunctions m start.signatures.keys
  distinct : (bindersOf (Surface.groupsOf (jobs m.bindings) start.signatures.keys)).Pairwise
    fun x y => x.1 ≠ y.1

theorem accepted_declared (hi : ∀ x ∈ imports, x.Named)
    (hok : ∀ r ∈ (declared m imports).2.reports, r.isError = false) :
    (declared m imports).2.Accepted m where
  ahead := ahead_declared hi
  owned := owned_declared hi hok
  shows := (declared_of_inductive inductive_shows (shows_initial m imports)).2
  signs := (declared_of_inductive inductive_signsFunctions fun _ _ _ _ h => by cases h).2
  distinct := distinct_groups hi hok _

/-- A stage of checking the groups of a module, after those in `pre`. -/
structure Declaring.Reaches (m : Surface.Module) (pre : List (List Job)) (d start : Declaring) :
    Prop where
  ahead : d.Ahead m (Unchecked m pre) start
  scope : d.globals.scope.lookup = start.globals.scope.lookup

/-- What groups are yet to define. -/
def Redefined (m : Surface.Module) (start : Declaring) (gs : List (List Job)) (n : Name) : Prop :=
  ∃ g ∈ gs, Redefines m.name start.signatures.keys g n

variable {pre gs : List (List Job)} {g : List Job}

theorem Declaring.Differs.redefined {d₁ : Declaring}
    (h : d.Differs (Redefines m.name start.signatures.keys g) d₁)
    (h' : d₁.Differs (Redefined m start gs) d') : d.Differs (Redefined m start (g :: gs)) d' := by
  refine (h.trans h').mono fun n hn => ?_
  rcases hn with hn | ⟨g', hg', hn⟩
  · exact ⟨g, List.mem_cons_self .., hn⟩
  · exact ⟨g', List.mem_cons_of_mem _ hg', hn⟩

theorem returns_differs_topGroup (hs : start.Accepted m) (hd : d.Reaches m pre start)
    (howned : Owned start g) :
    Returns (topGroup d g) fun r => d.Differs (Redefines m.name start.signatures.keys g) r.2 := by
  rcases topGroup_of_owns (hd.ahead.owns howned) with ⟨j, s, rfl, -, heq⟩ | ⟨hunsigned, heq⟩
  · rw [heq]
    exact .skip fun _ => .pure (.refl d)
  · rw [heq, hd.ahead.tidy.module]
    refine .bind (returns_binders _ m.name g) fun r hr => .pure (differs_addIdents fun i hi => ?_)
    obtain ⟨hnames, hbinder, -⟩ := hr
    obtain ⟨y, hy, hocc⟩ := hbinder i hi
    rw [hnames i hi, ← hocc, hd.scope]
    refine ⟨⟨fun f hf => ?_, y, hy, rfl⟩, hs.shows.own y.1 ?_⟩
    · rw [← hd.ahead.signatures]
      exact Table.get?_eq_none_iff.1 (hunsigned f hf)
    · obtain ⟨j, hj, hy⟩ := List.mem_flatMap.1 hy
      exact Option.isSome_iff_exists.2 ⟨_, howned j hj y hy⟩

theorem returns_reaches_topGroup (hs : start.Accepted m) (hd : d.Reaches m pre start)
    (howned : Owned start g) :
    Returns (topGroup d g) fun r => r.2.Reaches m (pre ++ [g]) start ∧
      d.Differs (Redefines m.name start.signatures.keys g) r.2 := by
  intro s
  have hdiffers := returns_differs_topGroup hs hd howned s
  exact ⟨⟨returns_ahead_topGroup hd.ahead howned s, hdiffers.scope.trans hd.scope⟩, hdiffers⟩

theorem returns_reaches_topGroups (hs : start.Accepted m) (hd : d.Reaches m pre start)
    (howned : ∀ g ∈ gs, Owned start g) :
    Returns (topGroups d gs) fun r =>
      r.2.Reaches m (pre ++ gs) start ∧ d.Differs (Redefined m start gs) r.2 := by
  induction gs generalizing d pre with
  | nil =>
    rw [List.append_nil]
    exact .pure ⟨hd, .refl d⟩
  | cons g gs ih =>
    obtain ⟨hg, hgs⟩ := List.forall_mem_cons.1 howned
    refine .bind (returns_reaches_topGroup hs hd hg) fun r hr => ?_
    refine .bind (ih hr.1 hgs) fun r' hr' => .pure ⟨?_, hr.2.redefined hr'.2⟩
    exact List.append_cons pre g gs ▸ hr'.1

end Check

end TypeLens
