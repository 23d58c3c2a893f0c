import TypeLens.Proofs.Checking.LocalNames

/-!
Equations and bindings that are checked without errors take the identifiers and dictionaries that
are around, apart from what they bind. A group takes the dictionaries that its constraints are
solved with.
-/

namespace TypeLens

namespace Check

open TypeLens.Core (BindScoped BindsScoped GroupScoped RowScoped Scoped)
open Typed (DictVar Ident)

variable {c : Core.Context} {E : State} {A A' : List Name} {env : Env}

-- Equations

/-- The right-hand side of an equation takes what is around, where the names `K` are known. -/
def Row.Scoping (c : Core.Context) (E : State) (K : String → Prop) (r : Row) : Prop :=
  ∀ (env : Env) (A : List Name), env.Serves c A → (∀ n, K n → env.Knows n) →
    Scopes E A (r.rhs env) fun e => Scoped c E.answers (env.names ++ A) e.1

def FunJob.Scoping (c : Core.Context) (E : State) (K : String → Prop) (j : FunJob) : Prop :=
  ∀ r ∈ j.first :: j.rest, r.Scoping c E K

def Job.Scoping (c : Core.Context) (E : State) (K : String → Prop) : Job → Prop
  | .fn j => j.Scoping c E K
  | .pat _ rhs _ => ∀ (env : Env) (A : List Name), env.Serves c A → (∀ n, K n → env.Knows n) →
    Scopes E A (rhs env) fun e => Scoped c E.answers (env.names ++ A) e.1

variable {K K' : String → Prop}

theorem Row.Scoping.mono {r : Row} (h : r.Scoping c E K) (hK : ∀ n, K n → K' n) :
    r.Scoping c E K' := fun env A henv hk => h env A henv fun n hn => hk n (hK n hn)

theorem Job.Scoping.mono {j : Job} (h : j.Scoping c E K) (hK : ∀ n, K n → K' n) :
    j.Scoping c E K' := by
  cases j with
  | fn j => exact fun r hr => (h r hr).mono hK
  | pat p rhs l => exact fun env A henv hk => h env A henv fun n hn => hk n (hK n hn)

section

variable (henv : env.Serves c A) (hk : ∀ n, K n → env.Knows n)
include henv hk

theorem scopes_checkRow (argTys : List Ty) (resTy : Ty) {r : Row} (h : r.Scoping c E K) :
    Scopes E A (checkRow env argTys resTy r) fun m =>
      RowScoped c E.answers (env.names ++ A) m ∧ m.pats.length ≤ argTys.length := by
  refine .bind (scopes_checkPats henv [] r.pats argTys []) fun ps => ?_
  refine .bind (h _ A (henv.extend ps.2) fun n hn => (hk n hn).extend ps.2) fun e => ?_
  refine .skip (scopes_unify _ _ _) fun _ => .pure fun he hps => ?_
  refine ⟨⟨?_, hps.fits, he.fits⟩, hps.length⟩
  refine he.free.mono fun x hx => ?_
  rw [Env.names_extend, List.append_assoc] at hx
  refine List.mem_append.2 ((List.mem_append.1 hx).imp_left fun hx => ?_)
  obtain ⟨p, hp, rfl⟩ := List.mem_map.1 hx
  exact (hps.names p.2 (List.mem_map_of_mem hp)).resolve_left List.not_mem_nil

theorem scopes_checkGroup (expected : Ty) {first : Row} {rest : List Row}
    (h : ∀ r ∈ first :: rest, r.Scoping c E K) :
    Scopes E A (checkGroup env expected first rest) (GroupScoped c E.answers (env.names ++ A)) := by
  refine .skip (scopes_rule.freshFor _) fun ts => .skip scopes_freshUvar fun t => ?_
  refine .skip (scopes_unify _ _ _) fun _ => ?_
  refine .bind (.mapM fun r hr => scopes_checkRow henv hk ts t (h r hr)) fun ms => ?_
  refine .pure fun hms => ?_
  have hall : ∀ m ∈ ms, RowScoped c E.answers (env.names ++ A) m ∧ m.pats.length ≤ ts.length := by
    intro m hm
    obtain ⟨r, -, h⟩ := hms.1 m hm
    exact h
  exact ⟨fun m hm => (hall m hm).1, fun m hm => (hall m hm).2⟩

-- Bindings

theorem scopes_check {j : Job} (h : j.Scoping c E K) (group : Bound) :
    Scopes E A (j.check env group) fun b => BindScoped c E.answers (env.names ++ A) b ∧
      ∀ y ∈ j.binders, ∀ i, group.get? y.1 = some i → i.name ∈ b.names := by
  cases j with
  | fn j =>
    have hfn (i : Ident) (hi : ∀ i', group.get? j.name = some i' → i' = i) : Scopes E A
        (do return Typed.Bind.fn i (← checkGroup env i.scheme.body j.first j.rest) j.loc) fun b =>
          BindScoped c E.answers (env.names ++ A) b ∧
            ∀ y ∈ (Job.fn j).binders, ∀ i, group.get? y.1 = some i → i.name ∈ b.names := by
      refine .bind (scopes_checkGroup henv hk _ h) fun g => .pure fun hg => ⟨.fn hg, ?_⟩
      intro y hy i' hi'
      obtain rfl := List.mem_singleton.1 hy
      rw [hi i' hi']
      exact List.mem_singleton_self _
    unfold Job.check
    dsimp only
    split
    · next i hi =>
      rw [pure_bind]
      refine hfn i fun i' hi' => ?_
      rw [hi] at hi'
      exact (Option.some.inj hi').symm
    · next hnone =>
      refine .skip scopes_freshUvar fun t => .skip (scopes_rule.newLocal _ _ _) fun i => hfn i ?_
      intro i' hi'
      rw [hnone] at hi'
      cases hi'
  | pat p rhs l =>
    refine .bind (h env A henv hk) fun e => ?_
    refine .bind (scopes_checkPat henv group p e.2 []) fun r => .pure fun hr he => ⟨?_, ?_⟩
    · exact .pat hr.fits (fun i hi => (hr.names i hi).resolve_left List.not_mem_nil) he
    · intro y hy i hi
      have hget := hr.group y.1 i hi (.inr (List.mem_map_of_mem hy))
      have hmem : i ∈ r.2.values := List.mem_map_of_mem (Table.mem_of_get? hget)
      exact List.mem_map_of_mem hmem

end

theorem lookup_eq_get? (ids : Bound) (occ : String) : List.lookup occ ids = ids.get? occ := by
  induction ids with
  | nil => rfl
  | cons p ids ih =>
    obtain ⟨k, i⟩ := p
    rw [List.lookup_cons, Table.get?, ih]
    by_cases hk : k = occ
    · simp [hk]
    · simp [hk, beq_eq_false_iff_ne.2 (Ne.symm hk)]

theorem scopes_groupIdents {nameOf : String → CheckM Name}
    (hn : ∀ occ, Scopes E A (nameOf occ) fun _ => True) (acc : Bound) (ys : List (String × Span)) :
    Scopes E A (groupIdents nameOf acc ys) fun _ => True := by
  induction ys generalizing acc with
  | nil => exact .pure trivial
  | cons y ys ih =>
    unfold groupIdents
    split
    · exact ih acc
    · exact .skip (hn _) fun n => .skip scopes_freshUvar fun t => ih _

/-- Constraints that wait still do so after others were solved. -/
theorem wanted_subset_solve (henv : env.Reducing) (sc : Scoping) (ws : List Wanted) (s : State) :
    s.wanted ⊆ ((solve env sc ws).run s).2.wanted := by
  obtain ⟨all, -, hwanted, -⟩ := run_solve henv sc ws s
  rw [hwanted]
  exact List.subset_append_left ..

/-- What a group exports has the names of what it binds. -/
theorem scoped_group {ids : Bound} {ys : List (String × Span)} {bs : List Typed.Bind}
    {ds : List DictVar} {tvs : List String} {loc : Span} (hids : Identifies ys ids)
    (poly : Ident → Ident)
    (hbs : ∀ b ∈ bs, BindScoped c E.answers
      ((env.extend ids).names ++ (ds.map (·.name) ++ A)) b)
    (hys : ∀ y ∈ ys, ∀ i, ids.get? y.1 = some i → ∃ b ∈ bs, i.name ∈ b.names) :
    let polys : Bound := ids.map fun m => (m.1, poly m.2)
    let exports := (polys.zip ids).map fun p => Typed.Export.mk p.1.2 p.2.2
    BindScoped c E.answers (env.names ++ A) (.abs tvs ds exports bs loc) ∧
      polys.map (·.2.name) = exports.map (·.poly.name) := by
  intro polys exports
  have hexports : exports = ids.map fun m => ⟨poly m.2, m.2⟩ := by
    simp only [exports, polys]
    rw [← List.map_prod_right_eq_zip, List.map_map]
    rfl
  have hnames : ∀ m ∈ ids, m.2.name ∈ Typed.Bind.namesOf bs := by
    intro m hm
    obtain ⟨y, hy, heq⟩ := hids.binder m hm
    obtain ⟨b, hb, hname⟩ := hys y hy m.2 (heq ▸ hids.self m hm)
    exact List.mem_flatMap.2 ⟨b, hb, hname⟩
  constructor
  · refine .abs (fun b hb => ?_) fun x hx => ?_
    · refine (hbs b hb).mono fun x hx => ?_
      rw [Env.names_extend] at hx
      simp only [List.mem_append] at hx ⊢
      rcases hx with (hx | hx) | hx | hx
      · obtain ⟨m, hm, rfl⟩ := List.mem_map.1 hx
        exact .inl (hnames m hm)
      · exact .inr (.inr (.inl hx))
      · exact .inr (.inl hx)
      · exact .inr (.inr (.inr hx))
    · rw [hexports] at hx
      obtain ⟨m, hm, rfl⟩ := List.mem_map.1 hx
      exact hnames m hm
  · rw [hexports, List.map_map, List.map_map]
    rfl

theorem Env.knows_of_bound {ids : Bound} {occ : String} {i : Ident} (h : ids.get? occ = some i) :
    (env.extend ids).Knows occ := by
  have hids : ids.lookup occ = some i := (lookup_eq_get? ids occ).trans h
  have hall : (ids ++ env.locals).lookup occ = (ids.lookup occ).or (env.locals.lookup occ) :=
    List.lookup_append
  rw [hids, Option.some_or] at hall
  exact .inl ⟨i, hall⟩

section

variable {js : List Job} {nameOf : String → CheckM Name} {pending : List Wanted} {s : State}

/-- The bindings of a group take what it binds and what is around, with the dictionaries that it
takes. -/
theorem ends_openGroup (henv : env.Serves c A)
    (hk : ∀ n, K n → env.Knows n ∨ ∃ y ∈ js.flatMap Job.binders, y.1 = n)
    (hn : ∀ occ, Scopes E A (nameOf occ) fun _ => True) (h : ∀ j ∈ js, j.Scoping c E K)
    (hb : Balanced pending s) (hA : A ⊆ A') :
    let r := (openGroup env nameOf js).run s
    Ends E A' (pending ++ r.1.raised) r.2 →
    Around E A (pending ++ r.2.wanted) →
    Ends E A pending s ∧ Identifies (js.flatMap Job.binders) r.1.monos ∧
      (∀ b ∈ r.1.binds, BindScoped c E.answers ((env.extend r.1.monos).names ++ A') b) ∧
      ∀ y ∈ js.flatMap Job.binders, ∀ i, r.1.monos.get? y.1 = some i →
        ∃ b ∈ r.1.binds, i.name ∈ b.names := by
  intro r hs hwaiting
  let ys := js.flatMap Job.binders
  let ids := (groupIdents nameOf [] ys).run s
  have hids : Identifies ys ids.1 := returns_identifies nameOf ys s
  have hinner : ∀ n, K n → (env.extend ids.1).Knows n := by
    intro n hn
    rcases hk n hn with hk | ⟨y, hy, rfl⟩
    · exact hk.extend ids.1
    · obtain ⟨i, hi⟩ := hids.bound y hy
      exact Env.knows_of_bound hi
  have hgroupIdents := scopes_groupIdents hn [] ys
  have hjobs := Scopes.mapM fun j hj =>
    scopes_check ((henv.extend ids.1).mono hA) hinner (h j hj) ids.1
  obtain ⟨hopened, hbs, hjs⟩ :=
    hjobs.collecting (hgroupIdents.conserves pending s hb) hs hwaiting
  refine ⟨(hgroupIdents.ends pending s hb hopened).1, hids, fun b hb => ?_, fun y hy i hi => ?_⟩
  · obtain ⟨j, -, hscoped, -⟩ := hbs b hb
    exact hscoped
  · obtain ⟨j, hj, hy⟩ := List.mem_flatMap.1 hy
    obtain ⟨b, hb, -, hnames⟩ := hjs j hj
    exact ⟨b, hb, hnames y hy i hi⟩

/-- Making type variables rigid changes nothing that matters here. -/
theorem ends_skolemise {uvars : List UVar} {tvs : List String}
    (h : Ends E A pending ((skolemise uvars tvs).run s).2) : Ends E A pending s :=
  h.of_later (List.Subset.refl _) (Nat.le_refl _) rfl (fun _ hw => .inl hw) h.waiting

end

/-- A group takes what is around, apart from what it binds and the dictionaries that it takes. -/
theorem scopes_inferGroup (henv : env.Serves c A) {js : List Job}
    (hk : ∀ n, K n → env.Knows n ∨ ∃ y ∈ js.flatMap Job.binders, y.1 = n)
    {nameOf : String → CheckM Name} (hn : ∀ occ, Scopes E A (nameOf occ) fun _ => True)
    (hc : ∀ j ∈ js, j.Conserving) (h : ∀ j ∈ js, j.Scoping c E K) :
    Scopes E A (inferGroup env nameOf js) fun r =>
      BindScoped c E.answers (env.names ++ A) r.1 ∧ r.2.map (·.2.name) = r.1.names := by
  have hname (occ : String) : Conserves (nameOf occ) := (hn occ).conserves
  refine ⟨conserves_inferGroup henv.reducing hname hc, fun pending s hb hs => ?_⟩
  let r := (openGroup env nameOf js).run s
  let sc : Scoping := ⟨r.1.uvars r.2.subst, r.1.outer⟩
  let ds := ((solve env sc r.1.raised).run r.2).1
  have hrun : (inferGroup env nameOf js).run s = (closeGroup env r.1 (groupLoc js)).run r.2 := rfl
  rw [hrun, run_closeGroup] at hs
  have hs := ends_skolemise hs
  have hsolved : Ends E (ds.map (·.name) ++ A) (pending ++ r.1.raised) r.2 :=
    ends_solve henv.reducing (balanced_openGroup henv.reducing hname hc hb) henv.instances
      henv.givens hs
  have hwanted := wanted_subset_solve henv.reducing sc r.1.raised r.2
  obtain ⟨hopened, hids, hbs, hys⟩ := ends_openGroup henv hk hn h hb
    (List.subset_append_right (ds.map (·.name)) A) hsolved (hs.around hwanted)
  obtain ⟨tvs, poly, -, heq⟩ := closeGroup_fst env r.1 (groupLoc js) r.2
  rw [hrun, heq]
  exact ⟨hopened, scoped_group hids poly hbs hys⟩

theorem returns_extend_inferGroups (env : Env) (gs : List (List Job)) :
    Returns (inferGroups env gs) fun r => ∃ ids, r.2 = env.extend ids := by
  induction gs generalizing env with
  | nil => exact .pure ⟨[], rfl⟩
  | cons g gs ih =>
    refine .skip fun r => .bind (ih (env.extend r.2)) fun r' hr' => .pure ?_
    obtain ⟨ids, hids⟩ := hr'
    exact ⟨ids ++ r.2, by rw [hids, Env.extend, Env.extend, Env.extend, List.append_assoc]⟩

section

variable (henv : env.Serves c A) (hk : ∀ n, K n → env.Knows n)
include henv hk

/-- Groups take what is around, and what comes after them takes what they bind, too. -/
theorem scopes_inferGroups {gs : List (List Job)} (hc : ∀ g ∈ gs, ∀ j ∈ g, j.Conserving)
    (h : ∀ g ∈ gs, ∀ j ∈ g, j.Scoping c E K) : Scopes E A (inferGroups env gs) fun r =>
      BindsScoped c E.answers (r.2.names ++ A) (env.names ++ A) r.1 := by
  induction gs generalizing env with
  | nil => exact .pure .nil
  | cons g gs ih =>
    have hg := scopes_inferGroup henv (fun n hn => .inl (hk n hn))
      (fun occ => scopes_rule.localName env occ) (hc g (List.mem_cons_self ..))
      (h g (List.mem_cons_self ..))
    refine .bind hg fun r => ?_
    refine .bind (ih (henv.extend r.2) (fun n hn => (hk n hn).extend r.2)
      (fun g hg => hc g (List.mem_cons_of_mem _ hg))
      fun g hg => h g (List.mem_cons_of_mem _ hg)) fun r' => .pure ?_
    rintro hr' ⟨hr, hnames⟩
    rw [Env.names_extend, hnames, List.append_assoc] at hr'
    exact .cons hr hr'

theorem scopes_inferLocals {js : List (Surface.Dependencies × Job)}
    (hc : ∀ j ∈ js, j.2.Conserving) (h : ∀ j ∈ js, j.2.Scoping c E K) :
    Scopes E A (inferLocals env js) fun r =>
      BindsScoped c E.answers (r.2.names ++ A) (env.names ++ A) r.1 := by
  have hreport (seen : List String) (bs : List (String × Span)) :
      Scopes E A (reportRepeated seen bs) fun _ => True := by
    induction bs generalizing seen with
    | nil => exact .pure trivial
    | cons b bs ih => exact .skip (scopes_rule.reportIf _ _ rfl) fun _ => ih _
  refine .skip (hreport _ _) fun _ => ?_
  refine scopes_inferGroups henv hk (fun g hg j hj => ?_) fun g hg j hj => ?_
  · obtain ⟨y, hy, rfl⟩ := Surface.mem_of_mem_groupsOf hg hj
    exact hc y hy
  · obtain ⟨y, hy, rfl⟩ := Surface.mem_of_mem_groupsOf hg hj
    exact h y hy

/-- The equations of a signed binding take what is around, with the dictionaries that it takes. -/
theorem ends_openSigned (poly : Ident) {j : FunJob} (h : j.Scoping c E K) {pending : List Wanted}
    {s : State} (hb : Balanced pending s) :
    let r := (openSigned env poly j).run s
    Ends E (r.1.1.map (·.name) ++ A) (pending ++ r.1.2.2) r.2 →
    Around E A (pending ++ r.2.wanted) →
    Ends E A pending s ∧
      GroupScoped c E.answers (env.names ++ (r.1.1.map (·.name) ++ A)) r.1.2.1 := by
  intro r hs hwaiting
  let givens : CheckM (List DictVar) :=
    poly.scheme.preds.mapM fun p => return ⟨← dictName env p.cls, p⟩
  have hgivens : Scopes E A givens fun _ => True :=
    .mono (.mapM (R := fun _ _ => True) fun p _ =>
      .skip (scopes_rule.localName _ _) fun _ => .pure trivial) fun _ _ => trivial
  have hgroup := scopes_checkGroup (henv.sign r.1.1 poly.scheme.tvs) hk poly.scheme.body h
  obtain ⟨hopened, hg⟩ := hgroup.collecting (hgivens.conserves pending s hb) hs hwaiting
  exact ⟨(hgivens.ends pending s hb hopened).1, hg⟩

omit henv hk in
theorem checkSigned_fst (poly : Ident) (j : FunJob) (s : State) :
    let r := (openSigned env poly j).run s
    let mono : Ident := ⟨poly.name, .mono poly.scheme.body⟩
    ((checkSigned env poly j).run s).1 =
      .abs poly.scheme.tvs r.1.1 [⟨poly, mono⟩] [.fn mono r.1.2.1 j.loc] j.loc := by
  rw [checkSigned_eq]
  rfl

/-- A signed binding takes what is around, apart from itself and the dictionaries that it takes. -/
theorem scopes_checkSigned (poly : Ident) {j : FunJob} (hc : j.Conserving)
    (h : j.Scoping c E K) :
    Scopes E A (checkSigned env poly j) (BindScoped c E.answers (env.names ++ A)) := by
  refine ⟨conserves_checkSigned henv.reducing poly hc, fun pending s hb hs => ?_⟩
  have hbalanced := balanced_openSigned henv.reducing poly hc hb
  have hopen := ends_openSigned (E := E) henv hk poly h hb
  rw [run_checkSigned] at hs
  rw [checkSigned_fst]
  generalize (openSigned env poly j).run s = r at *
  obtain ⟨⟨ds, g, raised⟩, s'⟩ := r
  dsimp only at *
  let inner : Env := { env with
    givens := env.givens ++ ds
    rigid := env.rigid ++ poly.scheme.tvs }
  let sc : Scoping := ⟨[], uvarsOf s'.subst env.locals⟩
  have hinner : inner.Serves c (ds.map (·.name) ++ A) := henv.sign ds poly.scheme.tvs
  have hnone : ((solve inner sc raised).run s').1 = [] := by
    have hparams : Returns (solve inner sc raised) fun ds => ∀ d ∈ ds, sc.IsParam d :=
      returns_solve raised
    refine List.eq_nil_iff_forall_not_mem.2 fun d hd => ?_
    obtain ⟨m, hm, -⟩ := hparams s' d hd
    cases hm
  have hsolved : Ends E (ds.map (·.name) ++ A) (pending ++ raised) s' := by
    have hall := ends_solve hinner.reducing hbalanced hinner.instances hinner.givens
      (hs.mono (List.subset_append_right (ds.map (·.name)) A))
    rw [hnone] at hall
    exact hall
  have hwanted := wanted_subset_solve hinner.reducing sc raised s'
  obtain ⟨hopened, hg⟩ := hopen hsolved (hs.around hwanted)
  refine ⟨hopened, .abs (List.forall_mem_singleton.2 ?_) (List.forall_mem_singleton.2 ?_)⟩
  · refine (BindScoped.fn hg).mono fun x hx => ?_
    simp only [List.mem_append] at hx ⊢
    tauto
  · exact List.mem_flatMap.2 ⟨_, List.mem_singleton_self _, List.mem_singleton_self _⟩

end

-- Expressions, by recursion on the tree

/-- What is bound by groups, one after the other. -/
def bindersOf (gs : List (List Job)) : List (String × Span) := gs.flatten.flatMap Job.binders

theorem mem_bindersOf {gs : List (List Job)} {y : String × Span} :
    y ∈ bindersOf gs ↔ ∃ g ∈ gs, ∃ j ∈ g, y ∈ j.binders := by
  simp only [bindersOf, List.mem_flatMap, List.mem_flatten]
  tauto

theorem binders_job (b : Surface.Binding) : (job b).binders = b.binders := by
  match b with
  | .fn (.mk _ _ _ _ _) | .pat (.mk _ _ _) => rfl

theorem mem_jobs {bs : List Surface.Binding} {x : Surface.Dependencies × Job} :
    x ∈ jobs bs ↔ ∃ b ∈ bs, (b.dependencies, job b) = x := by
  induction bs with
  | nil => simp [jobs]
  | cons b bs ih => simp [jobs, ih, eq_comm]

theorem mentionsBindings_cons (b : Surface.Binding) (bs : List Surface.Binding) :
    Surface.Expr.mentionsBindings (b :: bs) =
      b.mentions ++ Surface.Expr.mentionsBindings bs := by
  unfold Surface.Binding.mentions
  match b with
  | .fn (.mk _ _ (.mk _ _ _) _ _) | .pat (.mk _ _ _) =>
    simp only [Surface.Expr.mentionsBindings, List.append_nil]

mutual

theorem scopes_infer {A : List Name} {env : Env} (henv : env.Serves c A) : ∀ e : Surface.Expr,
    (∀ n ∈ e.mentions, env.Knows n) →
      Scopes E A (infer env e) fun r => Scoped c E.answers (env.names ++ A) r.1
  | .var n l, hk => by
    unfold infer
    rw [Surface.Expr.mentions] at hk
    exact scopes_inferVar henv (List.forall_mem_singleton.1 hk) l
  | .con n l, _ => by
    unfold infer
    exact scopes_inferCon henv n l
  | .lit v l, _ => by
    unfold infer
    exact scopes_note rfl (.lit v)
  | .app f a l, hk => by
    unfold infer
    rw [Surface.Expr.mentions, List.forall_mem_append] at hk
    refine .bind (scopes_infer henv f hk.1) fun f' => .bind (scopes_infer henv a hk.2) fun a' => ?_
    refine .skip (scopes_zonk _) fun t => ?_
    split
    · exact .skip (scopes_unify _ _ _) fun _ => scopes_note rfl fun ha hf => .app hf ha
    · refine .skip scopes_freshUvar fun t => .skip (scopes_unify _ _ _) fun _ => ?_
      exact scopes_note rfl fun ha hf => .app hf ha
  | .row e es l, hk => by
    unfold infer
    rw [Surface.Expr.mentions, List.forall_mem_append] at hk
    exact scopes_inferRow henv _ _ (scopes_infer henv e hk.1) (scopes_operands henv es hk.2)
  | .lambda ps e l, hk => by
    unfold infer
    rw [Surface.Expr.mentions] at hk
    refine .skip scopes_freshUvar fun t => ?_
    refine .bind (scopes_checkGroup henv hk t fun r hr => ?_) fun g => scopes_note rfl .lambda
    obtain rfl := List.mem_singleton.1 hr
    exact fun env A henv hk => scopes_infer henv e hk
  | .letIn bs e l, hk => by
    unfold infer
    rw [Surface.Expr.mentions, List.forall_mem_append] at hk
    refine (scopes_inferLocals henv hk.1 (conserving_jobs bs) (scoping_jobs bs)).bind_of
      (.skip fun _ => returns_extend_inferGroups env _) fun r hr => ?_
    obtain ⟨bs', env'⟩ := r
    obtain ⟨ids, rfl⟩ := hr
    have hbody := scopes_infer (henv.extend ids) e fun n hn => (hk.2 n hn).extend ids
    exact .bind hbody fun e' => scopes_note rfl fun he hbs => .letIn hbs he
  | .ifThenElse b y n l, hk => by
    unfold infer
    rw [Surface.Expr.mentions, List.forall_mem_append, List.forall_mem_append] at hk
    refine .bind (scopes_infer henv b hk.1.1) fun b' => .skip (scopes_unify _ _ _) fun _ => ?_
    refine .bind (scopes_infer henv y hk.1.2) fun y' => ?_
    refine .bind (scopes_infer henv n hk.2) fun n' => .skip (scopes_unify _ _ _) fun _ => ?_
    exact scopes_note rfl fun hn hy hb => .ifThenElse hb hy hn
  | .caseOf s as l, hk => by
    unfold infer
    rw [Surface.Expr.mentions, List.forall_mem_append] at hk
    refine .bind (scopes_infer henv s hk.1) fun s' => .skip scopes_freshUvar fun t => ?_
    refine .bind (.mapM fun r hr =>
      scopes_checkRow henv hk.2 _ t (scoping_altRows as r hr)) fun ms => scopes_note rfl ?_
    intro hms hs
    have hall : ∀ m ∈ ms, RowScoped c E.answers (env.names ++ A) m ∧ m.pats.length ≤ 1 := by
      intro m hm
      obtain ⟨r, -, h⟩ := hms.1 m hm
      exact h
    exact .caseOf hs ⟨fun m hm => (hall m hm).1, fun m hm => (hall m hm).2⟩
  | .list es l, hk => by
    unfold infer
    rw [Surface.Expr.mentions] at hk
    refine .skip scopes_freshUvar fun t => ?_
    exact .bind (scopes_inferElems t (scopes_parts henv es hk)) fun es' => scopes_note rfl .list
  | .par e l, hk => by
    unfold infer
    rw [Surface.Expr.mentions] at hk
    exact .bind (scopes_infer henv e hk) fun e' => scopes_note rfl .par

theorem scopes_parts {A : List Name} {env : Env} (henv : env.Serves c A) : ∀ es : List Surface.Expr,
    (∀ n ∈ Surface.Expr.mentionsList es, env.Knows n) →
      ∀ p ∈ parts env es, p.Scoping c E A (env.names ++ A)
  | [], _, p, hp => by
    unfold parts at hp
    cases hp
  | e :: es, hk, p, hp => by
    unfold parts at hp
    rw [Surface.Expr.mentionsList, List.forall_mem_append] at hk
    rcases List.mem_cons.1 hp with rfl | hp
    · exact scopes_infer henv e hk.1
    · exact scopes_parts henv es hk.2 p hp

theorem scopes_operands {A : List Name} {env : Env} (henv : env.Serves c A) :
    ∀ es : List Surface.Operand,
    (∀ n ∈ Surface.Expr.mentionsOperands es, env.Knows n) →
      ∀ p ∈ operands env es, p.2.Scoping c E A (env.names ++ A) ∧
        (isConOperator p.1.name = false → env.Knows p.1.name)
  | [], _, p, hp => by
    unfold operands at hp
    cases hp
  | .mk op e :: es, hk, p, hp => by
    unfold operands at hp
    rw [Surface.Expr.mentionsOperands, List.forall_mem_append, List.forall_mem_append] at hk
    rcases List.mem_cons.1 hp with rfl | hp
    · refine ⟨scopes_infer henv e hk.1.2, fun hop => hk.1.1 op.name ?_⟩
      rw [if_neg (Bool.eq_false_iff.1 hop)]
      exact List.mem_singleton_self _
    · exact scopes_operands henv es hk.2 p hp

theorem scoping_altRows : ∀ as : List Surface.Alt,
    ∀ r ∈ altRows as, r.Scoping c E (· ∈ Surface.Expr.mentionsAlts as)
  | [], r, hr => by
    unfold altRows at hr
    cases hr
  | .mk p e l :: as, r, hr => by
    unfold altRows at hr
    rw [Surface.Expr.mentionsAlts]
    rcases List.mem_cons.1 hr with rfl | hr
    · exact fun env A henv hk => scopes_infer henv e (List.forall_mem_append.1 hk).1
    · exact (scoping_altRows as r hr).mono fun _ hn => List.mem_append_right _ hn

theorem scoping_matchRow : ∀ m : Surface.Match, (matchRow m).Scoping c E (· ∈ m.rhs.mentions)
  | .mk ps e l => by
    unfold matchRow
    exact fun env A henv hk => scopes_infer henv e hk

theorem scoping_matchRows : ∀ ms : List Surface.Match,
    ∀ r ∈ matchRows ms, r.Scoping c E (· ∈ Surface.Expr.mentionsMatches ms)
  | [], r, hr => by
    unfold matchRows at hr
    cases hr
  | .mk ps e l :: ms, r, hr => by
    unfold matchRows at hr
    rw [Surface.Expr.mentionsMatches]
    rcases List.mem_cons.1 hr with rfl | hr
    · exact (scoping_matchRow (.mk ps e l)).mono fun _ hn => List.mem_append_left _ hn
    · exact (scoping_matchRows ms r hr).mono fun _ hn => List.mem_append_right _ hn

theorem scoping_funJob :
    ∀ b : Surface.FunBind, (funJob b).Scoping c E (· ∈ (Surface.Binding.fn b).mentions)
  | .mk n nl (.mk ps e l) ms l' => by
    unfold funJob Surface.Binding.mentions
    rw [Surface.Expr.mentionsBindings]
    intro r hr
    rcases List.mem_cons.1 hr with rfl | hr
    · refine (scoping_matchRow (.mk ps e l)).mono fun n hn => ?_
      exact List.mem_append_left _ (List.mem_append_left _ hn)
    · refine (scoping_matchRows ms r hr).mono fun n hn => ?_
      exact List.mem_append_left _ (List.mem_append_right _ hn)

theorem scoping_job : ∀ b : Surface.Binding, (job b).Scoping c E (· ∈ b.mentions)
  | .fn b => by
    unfold job
    exact scoping_funJob b
  | .pat (.mk p e l) => by
    unfold job Surface.Binding.mentions
    rw [Surface.Expr.mentionsBindings, Surface.Expr.mentionsBindings, List.append_nil]
    exact fun env A henv hk => scopes_infer henv e hk

theorem scoping_jobs : ∀ bs : List Surface.Binding,
    ∀ j ∈ jobs bs, j.2.Scoping c E (· ∈ Surface.Expr.mentionsBindings bs)
  | [], j, hj => by
    unfold jobs at hj
    cases hj
  | b :: bs, j, hj => by
    unfold jobs at hj
    rw [mentionsBindings_cons]
    rcases List.mem_cons.1 hj with rfl | hj
    · exact (scoping_job b).mono fun _ hn => List.mem_append_left _ hn
    · exact (scoping_jobs bs j hj).mono fun _ hn => List.mem_append_right _ hn

end

end Check

end TypeLens
