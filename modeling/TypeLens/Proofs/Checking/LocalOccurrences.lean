import TypeLens.Proofs.Checking.Occurrences

/-!
Binding groups refer to the right binders, and with them all expressions. A group comes after those
that it mentions, so that no later group of the same `let` hides what its variables refer to.
-/

namespace TypeLens.Check

open Typed (Bind Ident Use innermost?)

variable {env : Env} {G : Globals} {V V' : String × Span → Prop}

-- A group

/-- There is an identifier for each binder and no other, and it has the binder's name. -/
structure Names (ys : List (String × Span)) (ids : Bound) : Prop where
  keyed : ∀ i ∈ ids, i.2.name.occ = i.1
  binder : ∀ i ∈ ids, ∃ y ∈ ys, y.1 = i.1
  bound : ∀ y ∈ ys, ∃ i ∈ ids, i.1 = y.1

namespace Names

variable {ys : List (String × Span)} {ids : Bound} {occ : String}

theorem lookup_eq (h : Names ys ids) (occ : String) :
    ids.lookup occ = innermost? (ids.map (·.2)) occ := by
  have hkeyed := h.keyed
  clear h
  induction ids with
  | nil => rfl
  | cons i ids ih =>
    obtain ⟨hi, hids⟩ := List.forall_mem_cons.1 hkeyed
    rw [List.lookup_cons, List.map_cons, innermost?, List.find?_cons, hi, ih hids, Bool.beq_comm]
    split <;> simp_all [innermost?]

theorem exists_binder (h : Names ys ids) {i : Ident}
    (hi : innermost? (ids.map (·.2)) occ = some i) : ∃ y ∈ ys, y.1 = occ := by
  obtain ⟨p, hp, rfl⟩ := List.mem_map.1 (Typed.mem_of_innermost? hi)
  obtain ⟨y, hy, heq⟩ := h.binder p hp
  exact ⟨y, hy, heq.trans ((h.keyed p hp).symm.trans (Typed.occ_of_innermost? hi))⟩

theorem innermost?_eq_none (h : Names ys ids) (hocc : ∀ y ∈ ys, y.1 ≠ occ) :
    innermost? (ids.map (·.2)) occ = none := by
  cases hi : innermost? (ids.map (·.2)) occ with
  | none => rfl
  | some i =>
    obtain ⟨y, hy, heq⟩ := h.exists_binder hi
    exact absurd heq (hocc y hy)

theorem exists_innermost? (h : Names ys ids) {y : String × Span} (hy : y ∈ ys) :
    ∃ i, innermost? (ids.map (·.2)) y.1 = some i := by
  obtain ⟨p, hp, heq⟩ := h.bound y hy
  refine Option.isSome_iff_exists.1 (List.find?_isSome.2 ⟨p.2, List.mem_map_of_mem hp, ?_⟩)
  rw [h.keyed p hp, heq]
  exact beq_self_eq_true _

theorem map (h : Names ys ids) {poly : Ident → Ident} (hpoly : ∀ i, (poly i).name = i.name) :
    Names ys (ids.map fun i => (i.1, poly i.2)) where
  keyed := List.forall_mem_map.2 fun i hi => (congrArg Name.occ (hpoly i.2)).trans (h.keyed i hi)
  binder := List.forall_mem_map.2 h.binder
  bound y hy := by
    obtain ⟨i, hi, heq⟩ := h.bound y hy
    exact ⟨_, List.mem_map_of_mem hi, heq⟩

end Names

/-- A group with its identifiers. Where names that the group does not bind itself mean what they do
in `env`, its variables refer to what they should. -/
structure Group (env : Env) (V : String × Span → Prop) (js : List Job) (r : Bind × Bound) :
    Prop where
  names : Names (js.flatMap Job.binders) r.2
  idents : r.1.idents = r.2.map (·.2)
  uses : ∀ G ids, (∀ x, V x → (∀ y ∈ js.flatMap Job.binders, y.1 ≠ x.1) → env.Means G ids x.1) →
    ∀ u ∈ r.1.uses ids, u.Refers G ∧ V (u.ident.name.occ, u.loc)
  topUses : ∀ signed, (∀ i ∈ r.2, ¬ i.2.name.IsLocal ∧ i.2.name.occ ∉ signed) →
    r.1.topUses signed = r.1.uses []

theorem grants_groupIdents {nameOf : String → CheckM Name} (hn : ∀ occ, Quiet (nameOf occ))
    (ys : List (String × Span)) (hocc : ∀ occ, Returns (nameOf occ) fun n => n.occ = occ) :
    Grants (groupIdents nameOf [] ys) (Names ys) := by
  have hkeyed : Returns (groupIdents nameOf [] ys) fun ids => ∀ i ∈ ids, i.2.name.occ = i.1 :=
    returns_groupIdents (fun y _ => fun s _ => hocc y.1 s) (by simp)
  have hact := Grants.of_evolves (evolves_groupIdents (N := fun _ => True) hn [] ys)
  have hids := hact.of_returns (returns_identifies nameOf ys)
  refine (hids.of_returns hkeyed).weaken fun ids h => ⟨h.2, h.1.2.binder, fun y hy => ?_⟩
  obtain ⟨i, hi⟩ := h.1.2.bound y hy
  exact ⟨_, Table.mem_of_get? hi, rfl⟩

theorem grants_inferGroup (env : Env) {nameOf : String → CheckM Name}
    (hn : ∀ occ, Quiet (nameOf occ)) (hocc : ∀ occ, Returns (nameOf occ) fun n => n.occ = occ)
    {js : List Job} (h : ∀ j ∈ js, j.Explained V) :
    Grants (inferGroup env nameOf js) (Group env V js) := by
  have hopen : Grants (openGroup env nameOf js) fun o => Names (js.flatMap Job.binders) o.monos ∧
      (env.extend o.monos).Explains V (Bind.usesOf o.binds) := by
    refine .skip .get fun s => .bind (grants_groupIdents hn _ hocc) fun monos => ?_
    refine .bind (Grants.mapM fun j hj => grants_check _ monos (h j hj)).collecting fun r => ?_
    refine .pure fun hr hmonos => ⟨hmonos, ?_⟩
    refine .of_mem (fun b hb => ?_) fun _ _ => Typed.mem_usesOf_binds.1
    obtain ⟨j, -, hexplains⟩ := hr b hb
    exact hexplains
  refine .bind hopen fun o => ?_
  refine ((Grants.of_evolves (evolves_closeGroup (N := fun _ => True) env o _)).of_returns
    (Q := fun r => ∃ tvs ds loc, ∃ poly : Ident → Ident, (∀ i, (poly i).name = i.name) ∧
      r = (.abs tvs ds (o.monos.map fun m => ⟨poly m.2, m.2⟩) o.binds loc,
        o.monos.map fun m => (m.1, poly m.2))) fun s => ?_).weaken fun r hr ho => ?_
  · obtain ⟨tvs, poly, hpoly, heq⟩ := closeGroup_fst env o (groupLoc js) s
    let sc : Scoping := ⟨o.uvars s.subst, o.outer⟩
    refine ⟨tvs, ((solve env sc o.raised).run s).1, groupLoc js, poly, hpoly, heq.trans ?_⟩
    dsimp only
    rw [← List.map_prod_right_eq_zip, List.map_map]
    rfl
  · obtain ⟨-, tvs, ds, loc, poly, hpoly, rfl⟩ := hr
    have hmonos : (o.monos.map fun m => Typed.Export.mk (poly m.2) m.2).map (·.mono) =
        o.monos.map (·.2) := by
      rw [List.map_map]
      rfl
    refine ⟨ho.1.map hpoly, ?_, fun G ids hmeans u hu => ?_, fun signed hsigned => ?_⟩
    · rw [Bind.idents, List.map_map, List.map_map]
      rfl
    · rw [Bind.uses, hmonos] at hu
      refine ho.2 G _ (fun x hx => .extend (ho.1.lookup_eq x.1) fun hnone => hmeans x hx ?_) u hu
      rintro y hy heq
      obtain ⟨i, hi⟩ := ho.1.exists_innermost? hy
      rw [heq, hnone] at hi
      cases hi
    · rw [Bind.topUses, Bind.uses, hmonos, List.append_nil, List.filter_eq_self.2]
      refine List.forall_mem_map.2 fun m hm => decide_eq_true ?_
      have hall := hsigned _ (List.mem_map_of_mem hm)
      rwa [hpoly] at hall

-- The groups of a `let`

theorem grants_reportRepeated (seen : List String) (ys : List (String × Span)) :
    Grants (reportRepeated seen ys) fun _ =>
      (ys.map (·.1)).Nodup ∧ ∀ y ∈ ys, y.1 ∉ seen := by
  induction ys generalizing seen with
  | nil => exact .pure (by simp)
  | cons y ys ih =>
    refine .bind (grants_reportIf (p := .definedTwice y.1) rfl _ y.2) fun _ => ?_
    refine (ih (y.1 :: seen)).weaken fun _ h hnew => ?_
    rw [← Bool.not_eq_true, List.contains_iff_mem] at hnew
    refine ⟨List.nodup_cons.2 ⟨fun hy => ?_, h.1⟩, List.forall_mem_cons.2 ⟨hnew, fun z hz => ?_⟩⟩
    · obtain ⟨z, hz, heq⟩ := List.mem_map.1 hy
      exact h.2 z hz (heq ▸ List.mem_cons_self ..)
    · exact fun hseen => h.2 z hz (List.mem_cons_of_mem _ hseen)

/-- A place in a group. Nothing is mentioned there that a later group binds. -/
def Ready (V : String × Span → Prop) (later : List (List Job)) (x : String × Span) : Prop :=
  V x ∧ ∀ y ∈ bindersOf later, y.1 ≠ x.1

/-- Local groups, with the environment of what comes after them. -/
structure Locally (env : Env) (V : String × Span → Prop) (gs : List (List Job))
    (r : List Bind × Env) : Prop where
  extended : ∃ new, r.2 = env.extend new ∧
    ∀ occ, new.lookup occ = innermost? (Bind.identsOf r.1) occ
  only : ∀ occ, (∀ y ∈ bindersOf gs, y.1 ≠ occ) → innermost? (Bind.identsOf r.1) occ = none
  uses : ∀ G ids, (∀ x, V x → (∀ y ∈ bindersOf gs, y.1 ≠ x.1) → env.Means G ids x.1) →
    (∀ occ i, innermost? (Bind.identsOf r.1) occ = some i → innermost? ids occ = some i) →
      ∀ u ∈ Bind.usesOf r.1 ids, u.Refers G ∧ V (u.ident.name.occ, u.loc)

theorem bindersOf_append (gs gs' : List (List Job)) :
    bindersOf (gs ++ gs') = bindersOf gs ++ bindersOf gs' := by
  rw [bindersOf, List.flatten_append, List.flatMap_append]
  rfl

theorem bindersOf_cons (g : List Job) (gs : List (List Job)) :
    bindersOf (g :: gs) = g.flatMap Job.binders ++ bindersOf gs := by
  rw [bindersOf, List.flatten_cons, List.flatMap_append]
  rfl

theorem Locally.nil : Locally env V [] ([], env) where
  extended := ⟨[], rfl, fun _ => rfl⟩
  only _ _ := rfl
  uses _ _ _ _ _ h := absurd h List.not_mem_nil

theorem Locally.cons {g : List Job} {gs : List (List Job)} {r : Bind × Bound}
    {r' : List Bind × Env}
    (hdistinct : ∀ x ∈ g.flatMap Job.binders, ∀ y ∈ bindersOf gs, x.1 ≠ y.1)
    (hr : Group env (Ready V gs) g r) (hr' : Locally (env.extend r.2) V gs r') :
    Locally env V (g :: gs) (r.1 :: r'.1, r'.2) := by
  have hidents : Bind.identsOf (r.1 :: r'.1) = r.2.map (·.2) ++ Bind.identsOf r'.1 := by
    rw [Bind.identsOf, List.flatMap_cons, hr.idents]
    rfl
  have hlookup := hr.names.lookup_eq
  -- What this group binds, no later one does.
  have hlater : ∀ occ i, r.2.lookup occ = some i → innermost? (Bind.identsOf r'.1) occ = none := by
    intro occ i hi
    refine hr'.only occ fun y hy heq => ?_
    obtain ⟨x, hx, hocc⟩ := hr.names.exists_binder (hlookup occ ▸ hi)
    exact hdistinct x hx y hy (hocc.trans heq.symm)
  refine ⟨?_, fun occ hocc => ?_, fun G ids hmeans hids u hu => ?_⟩
  · obtain ⟨new, hnew, hall⟩ := hr'.extended
    refine ⟨new ++ r.2, by rw [hnew, Env.extend, Env.extend, Env.extend, List.append_assoc], ?_⟩
    intro occ
    have happend : (new ++ r.2).lookup occ = (new.lookup occ).or (r.2.lookup occ) :=
      List.lookup_append
    rw [happend, hidents, Typed.innermost?_append, hall, ← hlookup]
    cases hi : r.2.lookup occ with
    | none => rw [Option.or_none, Option.none_or]
    | some i => rw [hlater occ i hi, Option.none_or, Option.some_or]
  · rw [bindersOf_cons, List.forall_mem_append] at hocc
    rw [hidents, Typed.innermost?_append, hr.names.innermost?_eq_none hocc.1, hr'.only occ hocc.2]
    rfl
  · simp only [bindersOf_cons, List.forall_mem_append] at hmeans
    simp only [hidents, Typed.innermost?_append, ← hlookup] at hids
    rw [Bind.usesOf, List.mem_append] at hu
    rcases hu with hu | hu
    · obtain ⟨hrefers, hready⟩ := hr.uses G ids (fun x hx hown => hmeans x hx.1 ⟨hown, hx.2⟩) u hu
      exact ⟨hrefers, hready.1⟩
    · refine hr'.uses G ids (fun x hx hnot => ?_) (fun occ i hi => hids occ i ?_) u hu
      · refine .of_extend (fun i hi => hids x.1 i (by rw [hi, Option.some_or])) fun hnone => ?_
        refine hmeans x hx ⟨fun y hy heq => ?_, hnot⟩
        obtain ⟨i, hi⟩ := hr.names.exists_innermost? hy
        rw [heq, ← hlookup, hnone] at hi
        cases hi
      · cases hj : r.2.lookup occ with
        | none => rw [Option.none_or, hi]
        | some j =>
          rw [hlater occ j hj] at hi
          cases hi

theorem grants_inferGroups (env : Env) {gs : List (List Job)}
    (hdistinct : (bindersOf gs).Pairwise fun x y => x.1 ≠ y.1)
    (h : ∀ pre g post, gs = pre ++ g :: post → ∀ j ∈ g, j.Explained (Ready V post)) :
    Grants (inferGroups env gs) (Locally env V gs) := by
  induction gs generalizing env with
  | nil => exact .pure .nil
  | cons g gs ih =>
    rw [bindersOf_cons, List.pairwise_append] at hdistinct
    refine .bind (grants_inferGroup env (fun occ => quiet_localName env occ)
      (fun occ _ => rfl) (h [] g gs rfl)) fun r => ?_
    refine .bind (ih (env.extend r.2) hdistinct.2.1 fun pre g' post heq => ?_) fun r' =>
      .pure fun hr' hr => .cons hdistinct.2.2 hr hr'
    exact h (g :: pre) g' post (by rw [heq, List.cons_append])

theorem grants_groups (env : Env) {gs : List (List Job)} (h : ∀ g ∈ gs, ∀ j ∈ g, j.Explained V) :
    Grants (inferGroups env gs) fun _ => True := by
  induction gs generalizing env with
  | nil => exact .pure trivial
  | cons g gs ih =>
    refine .skip (grants_inferGroup env (fun occ => quiet_localName env occ)
      (fun occ _ => rfl) (h g (List.mem_cons_self ..))) fun r => ?_
    exact .skip (ih _ fun g' hg' => h g' (List.mem_cons_of_mem _ hg')) fun _ => .pure trivial

section

variable {js : List (Surface.Dependencies × Job)}

/-- A later group binds nothing that is mentioned: that is bound before, and only once. -/
theorem not_bound_later (hbinders : ∀ x ∈ js, x.1.binders = x.2.binders.map (·.1))
    {pre post : List (List Job)} {g : List Job} (hg : Surface.groupsOf js [] = pre ++ g :: post)
    (hdistinct : (bindersOf (Surface.groupsOf js [])).Pairwise fun x y => x.1 ≠ y.1) {j : Job}
    (hj : j ∈ g) : ∃ x ∈ js, x.2 = j ∧ ∀ n ∈ x.1.mentions, ∀ y ∈ bindersOf post, y.1 ≠ n := by
  obtain ⟨x, hx, rfl, hmentions⟩ := Surface.mentions_groupsOf hg hj
  refine ⟨x, hx, rfl, fun n hn y hy heq => ?_⟩
  obtain ⟨g', hg', j, hj, hyj⟩ := mem_bindersOf.1 hy
  have hlater : g' ∈ Surface.groupsOf js [] :=
    hg ▸ List.mem_append_right _ (List.mem_cons_of_mem _ hg')
  obtain ⟨x', hx', rfl⟩ := Surface.mem_of_mem_groupsOf hlater hj
  have hbound : n ∈ x'.1.binders := by
    rw [hbinders x' hx', ← heq]
    exact List.mem_map_of_mem hyj
  obtain ⟨g₀, hg₀, z, hz, hzg, hname⟩ := hmentions n hn List.not_mem_nil ⟨x', hx', hbound⟩
  rw [hbinders z hz] at hname
  obtain ⟨w, hw, hwname⟩ := List.mem_map.1 hname
  rw [hg, List.append_cons, bindersOf_append, List.pairwise_append] at hdistinct
  exact hdistinct.2.2 w (mem_bindersOf.2 ⟨g₀, hg₀, z.2, hzg, hw⟩) y hy (hwname.trans heq.symm)

/-- Without errors, what bindings define together is found from each of them and from what comes
after them. -/
theorem grants_inferLocals (env : Env)
    (hbinders : ∀ x ∈ js, x.1.binders = x.2.binders.map (·.1))
    (h : ∀ x ∈ js, x.2.Explained fun v => V v ∧ v.1 ∈ x.1.mentions) :
    Grants (inferLocals env js) fun r =>
      (∃ new, r.2 = env.extend new ∧ ∀ occ, new.lookup occ = innermost? (Bind.identsOf r.1) occ) ∧
        env.Explains V fun ids => Bind.usesOf r.1 (Bind.identsOf r.1 ++ ids) := by
  have hperm : (bindersOf (Surface.groupsOf js [])).Perm (js.flatMap (·.2.binders)) := by
    rw [← List.flatMap_map]
    exact (Surface.flatten_groupsOf_perm js []).flatMap_right _
  refine .bind (grants_reportRepeated [] _) fun _ => ?_
  refine .assuming (grants_groups (V := V) env fun g hg j hj => ?_) fun hrepeated => ?_
  · obtain ⟨x, hx, rfl⟩ := Surface.mem_of_mem_groupsOf hg hj
    exact (h x hx).mono fun v hv => hv.1
  have hnodup : ((bindersOf (Surface.groupsOf js [])).map (·.1)).Nodup :=
    (hperm.map (·.1)).nodup_iff.2 hrepeated.1
  have hdistinct := List.pairwise_map.1 hnodup
  refine (grants_inferGroups (V := V) env hdistinct fun pre g post hg j hj => ?_).weaken
    fun r hr => ⟨hr.extended, fun G ids hmeans u hu => ?_⟩
  · obtain ⟨x, hx, rfl, hlater⟩ := not_bound_later hbinders hg hdistinct hj
    exact (h x hx).mono fun v hv => ⟨hv.1, hlater v.1 hv.2⟩
  · refine hr.uses G _ (fun x hx hnot => (hmeans x hx).append (hr.only x.1 hnot)) ?_ u hu
    intro occ i hi
    rw [Typed.innermost?_append, hi, Option.some_or]

end

-- Functions with signatures

/-- Dictionaries are no variables. -/
theorem Env.Explains.of_sign {uses : List Ident → List Use} {ds : List Typed.DictVar}
    {tvs : List String} (h : Env.Explains { env with givens := env.givens ++ ds
                                                     rigid := env.rigid ++ tvs } V uses) :
    env.Explains V uses := fun G ids hmeans =>
  h G ids fun x hx => ⟨(hmeans x hx).binder, (hmeans x hx).top⟩

/-- A function with a signature. -/
structure Signed (env : Env) (V : String × Span → Prop) (poly : Ident) (b : Bind) : Prop where
  uses : ∀ G, (∀ x, V x → env.Means G [] x.1) →
    ∀ signed, (poly.name.IsLocal ∨ poly.name.occ ∈ signed) →
      ∀ u ∈ b.topUses signed, u.Refers G ∧ V (u.ident.name.occ, u.loc)

theorem grants_checkSigned (env : Env) (poly : Ident) {j : FunJob} (h : j.Explained V) :
    Grants (checkSigned env poly j) (Signed env V poly) := by
  refine .skip (.mapM (S := fun _ _ => True) fun p _ =>
    .skip (grants_rule.localName _ _) fun _ => .pure trivial) fun ds => ?_
  refine .bind (grants_checkGroup _ _ h).collecting fun r => .skip .get fun s => ?_
  refine .skip (.of_quiet (quiet_solve _ _ _)) fun _ => .pure fun hr => ⟨?_⟩
  intro G hmeans signed hpoly u hu
  have hnot : ¬ (¬ poly.name.IsLocal ∧ poly.name.occ ∉ signed) := by tauto
  rw [Bind.topUses, List.map_singleton, List.filter_cons_of_neg (by simpa using hnot),
    List.filter_nil, Bind.usesOf, Bind.usesOf, List.append_nil] at hu
  exact Env.Explains.of_sign hr G [] hmeans u hu

-- Expressions, by recursion on the tree

theorem binders_jobs {bs : List Surface.Binding} :
    ∀ x ∈ jobs bs, x.1.binders = x.2.binders.map (·.1) := by
  intro x hx
  obtain ⟨b, -, rfl⟩ := mem_jobs.1 hx
  rw [binders_job]
  rfl

mutual

theorem grants_infer (env : Env) : ∀ e : Surface.Expr,
    Grants (infer env e) fun r => env.Explains (· ∈ e.variables) r.1.uses
  | .var n l => by
    unfold infer
    exact grants_inferVar env (List.mem_singleton_self (n, l))
  | .con n l => by
    unfold infer
    exact grants_inferCon env n l
  | .lit v l => by
    unfold infer
    exact grants_note .nil
  | .app f a l => by
    unfold infer
    refine .bind (grants_infer env f) fun f' => .bind (grants_infer env a) fun a' => ?_
    refine .skip (.of_quiet (quiet_zonk _)) fun t => ?_
    have huses : env.Explains (· ∈ a.variables) a'.1.uses →
        env.Explains (· ∈ f.variables) f'.1.uses →
          env.Explains (· ∈ (Surface.Expr.app f a l).variables) (Typed.Expr.app f'.1 a'.1 l).uses :=
      fun ha hf => (hf.mono fun _ => List.mem_append_left _).append
        (ha.mono fun _ => List.mem_append_right _)
    split
    · exact .skip (grants_rule.unify _ _ _) fun _ => grants_note huses
    · refine .skip grants_rule.freshUvar fun t => .skip (grants_rule.unify _ _ _) fun _ => ?_
      exact grants_note huses
  | .row e es l => by
    unfold infer
    refine grants_inferRow env ((grants_infer env e).weaken fun _ h =>
      h.mono fun _ => List.mem_append_left _) fun p hp => ?_
    obtain ⟨hinfer, hop⟩ := grants_operands env es p hp
    exact ⟨hinfer.weaken fun _ h => h.mono fun _ => List.mem_append_right _,
      fun h => List.mem_append_right _ (hop h)⟩
  | .lambda ps e l => by
    unfold infer
    refine .skip grants_rule.freshUvar fun t => ?_
    refine .bind (grants_checkGroup env t fun r hr => ?_) fun g => grants_note id
    obtain rfl := List.mem_singleton.1 hr
    exact fun env => grants_infer env e
  | .letIn bs e l => by
    unfold infer
    have hjobs : ∀ x ∈ jobs bs, x.2.Explained fun v =>
        v ∈ Surface.Binding.variablesOf bs ∧ v.1 ∈ x.1.mentions := by
      intro x hx
      obtain ⟨b, hb, rfl⟩ := mem_jobs.1 hx
      refine (explained_jobs bs b hb).mono fun v hv => ⟨Surface.mem_variablesOf.2 ⟨b, hb, hv⟩, ?_⟩
      rw [Surface.Binding.dependencies, Surface.Binding.mentions_eq]
      exact List.mem_map_of_mem hv
    refine .bind (grants_inferLocals env binders_jobs hjobs) fun r => ?_
    refine .bind (grants_infer r.2 e) fun e' => grants_note ?_
    rintro he ⟨⟨new, hnew, hlookup⟩, hbs⟩
    rw [hnew] at he
    exact (hbs.mono fun _ => List.mem_append_left _).append
      ((he.within hlookup).mono fun _ => List.mem_append_right _)
  | .ifThenElse b y n l => by
    unfold infer
    refine .bind (grants_infer env b) fun b' => .skip (grants_rule.unify _ _ _) fun _ => ?_
    refine .bind (grants_infer env y) fun y' => ?_
    refine .bind (grants_infer env n) fun n' => .skip (grants_rule.unify _ _ _) fun _ => ?_
    refine grants_note fun hn hy hb => .append (.append ?_ ?_) ?_
    · exact hb.mono fun _ h => List.mem_append_left _ (List.mem_append_left _ h)
    · exact hy.mono fun _ h => List.mem_append_left _ (List.mem_append_right _ h)
    · exact hn.mono fun _ h => List.mem_append_right _ h
  | .caseOf s as l => by
    unfold infer
    refine .bind (grants_infer env s) fun s' => .skip grants_rule.freshUvar fun t => ?_
    refine .bind (grants_rows env _ t (explained_altRows as)) fun ms => grants_note fun hms hs => ?_
    exact (hs.mono fun _ => List.mem_append_left _).append
      (hms.mono fun _ => List.mem_append_right _)
  | .list es l => by
    unfold infer
    refine .skip grants_rule.freshUvar fun t => ?_
    refine .bind (grants_inferElems env t (grants_parts env es)) fun es' => ?_
    exact grants_note fun hes => .of_mem hes fun _ _ => Typed.mem_usesOf_exprs.1
  | .par e l => by
    unfold infer
    exact .bind (grants_infer env e) fun e' => grants_note id

theorem grants_parts (env : Env) : ∀ es : List Surface.Expr, ∀ p ∈ parts env es,
    Grants p.infer fun r => env.Explains (· ∈ Surface.Expr.variablesOf es) r.1.uses
  | [], p, hp => by
    unfold parts at hp
    cases hp
  | e :: es, p, hp => by
    unfold parts at hp
    rcases List.mem_cons.1 hp with rfl | hp
    · exact (grants_infer env e).weaken fun _ h => h.mono fun _ => List.mem_append_left _
    · exact (grants_parts env es p hp).weaken fun _ h => h.mono fun _ => List.mem_append_right _

theorem grants_operands (env : Env) : ∀ es : List Surface.Operand, ∀ p ∈ operands env es,
    (Grants p.2.infer fun r => env.Explains (· ∈ Surface.Operand.variablesOf es) r.1.uses) ∧
      (isConOperator p.1.name = false → (p.1.name, p.1.loc) ∈ Surface.Operand.variablesOf es)
  | [], p, hp => by
    unfold operands at hp
    cases hp
  | .mk op e :: es, p, hp => by
    unfold operands at hp
    rw [Surface.Operand.variablesOf]
    rcases List.mem_cons.1 hp with rfl | hp
    · refine ⟨(grants_infer env e).weaken fun _ h => h.mono fun _ hx =>
        List.mem_append_left _ (List.mem_append_right _ hx), fun hop => ?_⟩
      rw [if_neg (Bool.eq_false_iff.1 hop)]
      exact List.mem_append_left _ (List.mem_append_left _ (List.mem_singleton_self _))
    · obtain ⟨hinfer, hop⟩ := grants_operands env es p hp
      exact ⟨hinfer.weaken fun _ h => h.mono fun _ => List.mem_append_right _,
        fun h => List.mem_append_right _ (hop h)⟩

theorem explained_altRows : ∀ as : List Surface.Alt,
    ∀ r ∈ altRows as, r.Explained (· ∈ Surface.Alt.variablesOf as)
  | [], r, hr => by
    unfold altRows at hr
    cases hr
  | .mk p e l :: as, r, hr => by
    unfold altRows at hr
    rcases List.mem_cons.1 hr with rfl | hr
    · exact fun env => (grants_infer env e).weaken fun _ h => h.mono fun _ =>
        List.mem_append_left _
    · exact (explained_altRows as r hr).mono fun _ => List.mem_append_right _

theorem explained_matchRow : ∀ m : Surface.Match, (matchRow m).Explained (· ∈ m.variables)
  | .mk ps e l => by
    unfold matchRow
    exact fun env => grants_infer env e

theorem explained_matchRows : ∀ ms : List Surface.Match,
    ∀ r ∈ matchRows ms, r.Explained (· ∈ Surface.Match.variablesOf ms)
  | [], r, hr => by
    unfold matchRows at hr
    cases hr
  | m :: ms, r, hr => by
    unfold matchRows at hr
    rcases List.mem_cons.1 hr with rfl | hr
    · exact (explained_matchRow m).mono fun _ => List.mem_append_left _
    · exact (explained_matchRows ms r hr).mono fun _ => List.mem_append_right _

theorem explained_funJob : ∀ b : Surface.FunBind, (funJob b).Explained (· ∈ b.variables)
  | .mk n nl m ms l => by
    unfold funJob
    intro r hr
    rcases List.mem_cons.1 hr with rfl | hr
    · exact (explained_matchRow m).mono fun _ => List.mem_append_left _
    · exact (explained_matchRows ms r hr).mono fun _ => List.mem_append_right _

theorem explained_job : ∀ b : Surface.Binding, (job b).Explained (· ∈ b.variables)
  | .fn b => by
    unfold job
    exact explained_funJob b
  | .pat (.mk p e l) => by
    unfold job
    exact fun env => grants_infer env e

theorem explained_jobs : ∀ bs : List Surface.Binding, ∀ b ∈ bs,
    (job b).Explained (· ∈ b.variables)
  | [], b, hb => by cases hb
  | b' :: bs, b, hb => by
    rcases List.mem_cons.1 hb with heq | hb
    · rw [heq]
      exact explained_job b'
    · exact explained_jobs bs b hb

end

end TypeLens.Check
