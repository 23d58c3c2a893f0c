import TypeLens.Proofs.Checking.Conservation
import TypeLens.Proofs.Checking.TopBindings
import TypeLens.Proofs.Typed.Types

/-!
What is left of unification variables. In the tree of a module they stand for themselves, and what a
module makes known has none: top-level groups are generalised over all that are in their types.
-/

namespace TypeLens

/-- Nothing is left to find out in a scheme, and its constraints are on variables that it
quantifies. -/
structure Scheme.Closed (s : Scheme) : Prop where
  body : s.body.uvarOccurrences = []
  preds : ∀ p ∈ s.preds, ∃ v ∈ s.tvs, p.arg = .var v

structure DataCon.Closed (c : DataCon) : Prop where
  scheme : c.scheme.Closed
  args : ∀ t ∈ c.argTypes, t.uvarOccurrences = []

def Entity.Closed : Entity → Prop
  | .tyCon t => ∀ c ∈ t.dataCons, c.Closed
  | .dataCon c => c.Closed
  | .typeClass c => ∀ x ∈ c.methods, x.scheme.Closed
  | .ident i => i.scheme.Closed

structure Exports.Closed (x : Exports) : Prop where
  entities : ∀ p ∈ x.entities, p.2.Closed
  instances : ∀ i ∈ x.instances, ∀ p ∈ i.context, ∃ v ∈ i.tyvars, p.arg = .var v

theorem Exports.Closed.addEntity {x : Exports} (hx : x.Closed) {e : Entity} (he : e.Closed) :
    (x.addEntity e).Closed := ⟨Table.forall_mem_put hx.entities he, hx.instances⟩

namespace Check

open Typed (Ident DictVar)

namespace Declare

/-- What a module makes known so far is closed. -/
abbrev Closes {α : Type} (act : DeclareM α) (Q : α → Prop) : Prop :=
  Preserves (·.exports.Closed) act Q

theorem reportable_closed : Reportable (·.exports.Closed) := fun _ _ _ h => h

theorem closes_addEntity {e : Entity} (he : e.Closed) : Closes (addEntity e) fun _ => True :=
  .modify fun _ hd => hd.addEntity he

theorem closes_define (space : Namespace) (occ : String) (loc : Span) :
    Closes (define space occ loc) fun _ => True := by
  refine .bind .get fun s hs => ?_
  split
  · exact .bind (preserves_report reportable_closed rfl _) fun _ _ => .pure trivial
  · exact .bind (.set hs) fun _ _ => .pure trivial

theorem closed_listEntities : ∀ e ∈ listEntities, e.Closed := by
  have hscheme {t : Ty} (ht : t.uvarOccurrences = []) : Scheme.Closed ⟨["a"], [], t⟩ :=
    ⟨ht, fun _ h => absurd h List.not_mem_nil⟩
  have hnil : ∀ t ∈ ([] : List Ty), t.uvarOccurrences = [] := fun _ h => absurd h List.not_mem_nil
  have hcons : ∀ t ∈ [.var "a", Ty.list (.var "a")], t.uvarOccurrences = [] := by decide
  simp only [listEntities, List.forall_mem_cons, Entity.Closed]
  exact ⟨⟨⟨hscheme rfl, hnil⟩, ⟨hscheme rfl, hcons⟩, fun _ h => absurd h List.not_mem_nil⟩,
    ⟨hscheme rfl, hnil⟩, ⟨hscheme rfl, hcons⟩, fun _ h => absurd h List.not_mem_nil⟩

theorem closes_typeName (decl : Surface.Decl) : Closes (typeName decl) fun _ => True := by
  cases decl with
  | data d =>
    refine .bind (closes_define _ _ _) fun r _ => ?_
    cases r with
    | none => exact .pure trivial
    | some n => exact closes_addEntity (fun _ h => absurd h List.not_mem_nil)
  | cls c =>
    refine .bind (closes_define _ _ _) fun r _ => ?_
    cases r with
    | none => exact .pure trivial
    | some n => exact closes_addEntity (fun _ h => absurd h List.not_mem_nil)
  | _ => exact .pure trivial

theorem closes_dataCon (decl : Surface.DataDecl) (parent : Name) (c : Surface.ConDecl) :
    Closes (dataCon decl parent c) fun r => ∀ k ∈ r, k.Closed := by
  refine .bind (preserves_typesOf reportable_closed _ _) fun args hargs => ?_
  refine .bind (closes_define _ _ _) fun r _ => ?_
  cases r with
  | none => exact .pure (by simp)
  | some n =>
    have hresult : (Ty.conApp parent (decl.tyvars.map .var)).uvarOccurrences = [] :=
      Ty.uvarOccurrences_conApp (List.forall_mem_map.2 fun _ _ => rfl)
    have hbody : (Ty.fns args (.conApp parent (decl.tyvars.map .var))).uvarOccurrences = [] := by
      rw [Ty.uvarOccurrences_fns, hresult, List.append_nil]
      exact List.flatMap_eq_nil_iff.2 hargs
    have hcon : DataCon.Closed ⟨n, c.loc, parent, ⟨decl.tyvars, [],
        Ty.fns args (.conApp parent (decl.tyvars.map .var))⟩, args⟩ :=
      ⟨⟨hbody, fun _ h => absurd h List.not_mem_nil⟩, hargs⟩
    exact .bind (closes_addEntity hcon) fun _ _ => .pure fun k hk => Option.mem_some.1 hk ▸ hcon

theorem closes_dataCons (decl : Surface.DataDecl) : Closes (dataCons decl) fun _ => True := by
  unfold dataCons
  refine .bind .get fun s _ => ?_
  dsimp only
  split
  · split
    · refine .bind (.mapM fun c _ => closes_dataCon _ _ c) fun cons hcons => ?_
      refine closes_addEntity fun k hk => ?_
      obtain ⟨r, hr, hk⟩ := List.mem_filterMap.1 hk
      exact hcons r hr k hk
    · exact .pure trivial
  · exact .pure trivial

theorem closes_method (cls : Name) {s : Scheme} (hs : s.Closed) (name : String × Span) :
    Closes (method cls s name) fun r => ∀ x ∈ r, x.scheme.Closed := by
  refine .bind (closes_define _ _ _) fun r _ => ?_
  cases r with
  | none => exact .pure (by simp)
  | some n =>
    exact .bind (closes_addEntity hs) fun _ _ => .pure fun x hx => Option.mem_some.1 hx ▸ hs

theorem closes_methodSig (c : Surface.ClassDecl) (cls : Name) (sig : Surface.TypeSig) :
    Closes (methodSig c cls sig) fun ms => ∀ x ∈ ms, x.scheme.Closed := by
  refine preserves_reporting reportable_closed rfl ?_
  refine .bind (preserves_typeOf reportable_closed none sig.ty.body) fun body hbody => ?_
  have hscheme : Scheme.Closed
      ⟨c.tyvar :: body.freeVars.filter (· ≠ c.tyvar), [⟨cls, .var c.tyvar⟩], body⟩ :=
    ⟨hbody, List.forall_mem_singleton.2 ⟨_, List.mem_cons_self .., rfl⟩⟩
  refine preserves_reporting reportable_closed rfl ?_
  refine .bind (.mapM fun name _ => closes_method cls hscheme name) fun rs hrs => .pure fun x hx => ?_
  obtain ⟨r, hr, hx⟩ := List.mem_filterMap.1 hx
  exact hrs r hr x hx

theorem closes_classMethods (c : Surface.ClassDecl) : Closes (classMethods c) fun _ => True := by
  unfold classMethods
  refine .bind .get fun s _ => ?_
  dsimp only
  split
  · split
    · refine .bind (.mapM fun sig _ => closes_methodSig c _ sig) fun ms hms => ?_
      refine closes_addEntity fun x hx => ?_
      obtain ⟨xs, hxs, hx⟩ := List.mem_flatten.1 hx
      exact hms xs hxs x hx
    · exact .pure trivial
  · exact .pure trivial

/-- A written type quantifies the variables of its context as well as those of its body. -/
theorem closes_schemeOf (q : Surface.QualType) : Closes (schemeOf q) Scheme.Closed := by
  refine .bind (preserves_typeOf reportable_closed none q.body) fun body hbody => ?_
  refine .bind (.mapM fun p _ => (preserves_predOf reportable_closed p).weaken
    (R := fun r => ∀ x ∈ r, ∃ v, x.arg = .var v) fun r hr x hx => ⟨_, hr x hx⟩) fun rs hrs => ?_
  refine .pure ⟨hbody, fun p hp => ?_⟩
  obtain ⟨r, hr, hmem⟩ := List.mem_filterMap.1 hp
  obtain ⟨v, hv⟩ := hrs r hr p hmem
  refine ⟨v, List.mem_eraseDups.2 (List.mem_append_right _ ?_), hv⟩
  refine List.mem_flatMap.2 ⟨p, hp, ?_⟩
  rw [hv, Ty.freeVars, List.mem_eraseDups]
  exact List.mem_singleton_self v

theorem closes_primitive (p : Surface.PrimDecl) : Closes (primitive p) fun _ => True := by
  refine .bind (closes_schemeOf _) fun s hs => .forM fun name _ => ?_
  refine .bind (closes_define _ _ _) fun r _ => ?_
  cases r with
  | none => exact .pure trivial
  | some n => exact closes_addEntity hs

theorem closes_valueNames (decl : Surface.Decl) : Closes (valueNames decl) fun _ => True := by
  cases decl with
  | data d => exact closes_dataCons d
  | cls c => exact closes_classMethods c
  | prim p => exact closes_primitive p
  | bind b => exact .forM fun name _ => .bind (closes_define _ _ _) fun _ _ => .pure trivial
  | sig | fixity | inst => exact .pure trivial

theorem closes_signature (m : Surface.Module) (decl : Surface.Decl) :
    Closes (signature m decl) fun _ => True := by
  cases decl with
  | sig d =>
    refine .bind (closes_schemeOf _) fun scheme hscheme => .forM fun name _ => .bind .get fun s hs => ?_
    split
    · next hp => exact preserves_report reportable_closed (constraint?_of_signatureProblem? hp) _
    · exact .bind (.set hs) fun _ _ => closes_addEntity hscheme
  | _ => exact .pure trivial

theorem closes_instancesAndFixities (decls : List Surface.Decl) :
    Closes (instancesAndFixities decls) fun _ => True := by
  have hinst (decl : Surface.InstanceDecl) := preserves_inst_of reportable_closed
    (fun d i (hd : d.exports.Closed) hi _ _ =>
      ⟨hd.entities, List.forall_mem_append.2 ⟨hd.instances, List.forall_mem_singleton.2 hi.2⟩⟩) decl
  have hfixity (decl : Surface.FixityDecl) := preserves_fixity_of reportable_closed
    (fun d _ _ (hd : d.exports.Closed) _ _ => ⟨hd.entities, hd.instances⟩) decl
  exact (preserves_instancesAndFixities_of hinst hfixity decls).weaken fun _ _ => trivial

theorem closes_all (m : Surface.Module) : Closes (all m) fun _ => True := by
  have hwireIn : ∀ e ∈ listEntities, Closes (wireIn e) fun _ => True := fun e he =>
    .bind (.modify fun _ hd => hd) fun _ _ => closes_addEntity (closed_listEntities e he)
  have hrest : Closes (do
      m.decls.forM typeName
      m.decls.forM valueNames
      m.decls.forM (signature m)
      instancesAndFixities m.decls) fun _ => True :=
    .bind (.forM fun decl _ => closes_typeName decl) fun _ _ =>
      .bind (.forM fun decl _ => closes_valueNames decl) fun _ _ =>
        .bind (.forM fun decl _ => closes_signature m decl) fun _ _ =>
          closes_instancesAndFixities m.decls
  unfold all
  split
  · exact .bind (.forM hwireIn) fun _ _ => hrest
  · exact hrest

end Declare

-- Binding groups

/-- A generalised identifier keeps those constraints that are on variables of its type. -/
theorem closed_generalise {σ : Subst} {mono : Ident}
    (h : (σ.apply mono.scheme.body).uvarOccurrences = []) (tvs : List String)
    (dicts : List DictVar) : (generalise σ tvs dicts mono).scheme.Closed := by
  refine ⟨h, fun p hp => ?_⟩
  obtain ⟨-, hown⟩ := List.mem_filter.1 hp
  split at hown
  · next v hv => exact ⟨v, of_decide_eq_true hown, hv⟩
  · cases hown

/-- If all variables of a type are made rigid, then none is left in it. -/
theorem uvarOccurrences_fixAll {σ : Subst} {ms : List UVar} {tvs : List String} {t : Ty}
    (hl : tvs.length = ms.length) (hn : ms.Nodup) (hσ : ∀ m ∈ ms, σ.image? m = none)
    (ht : ∀ m ∈ (σ.apply t).uvarOccurrences, m ∈ ms) :
    ((σ.fixAll (ms.zip tvs)).apply t).uvarOccurrences = [] := by
  have hsub := zip_fst_sublist ms tvs
  have hgrows : σ.Grows (σ.fixAll (ms.zip tvs)) :=
    Subst.grows_fixAll (hn.sublist hsub) fun p hp => hσ p.1 (hsub.subset (List.mem_map_of_mem hp))
  refine List.eq_nil_iff_forall_not_mem.2 fun k hk => ?_
  rw [← hgrows, Subst.apply_eq, Ty.mem_uvarOccurrences_substUvars] at hk
  obtain ⟨m, hm, hk⟩ := hk
  obtain ⟨v, -, hv⟩ := exists_apply_fixAll hl hn hσ (ht m hm)
  have hk : k ∈ ((σ.fixAll (ms.zip tvs)).apply (.uvar m)).uvarOccurrences := hk
  rw [hv] at hk
  cases hk

/-- A group that leaves no variable to its surroundings is generalised over all variables in the types
of its identifiers. -/
theorem closed_closeGroup (env : Env) {g : OpenGroup} (hg : g.outer = []) (loc : Span) :
    Returns (closeGroup env g loc) fun r => ∀ i ∈ r.2, i.2.scheme.Closed := by
  intro s i hi
  let ms := g.uvars s.subst
  let r := (solve env ⟨ms, g.outer⟩ g.raised).run s
  let tvs := freshTyvars env.rigid ms.length
  have himage : r.2.subst.image? = s.subst.image? := (quiet_solve env _ g.raised).image? s
  have hms : ∀ j ∈ g.monos, ∀ m ∈ (s.subst.apply j.2.scheme.body).uvarOccurrences, m ∈ ms := by
    intro j hj m hm
    refine List.mem_eraseDups.2 (List.mem_filter.2 ⟨List.mem_flatMap.2 ⟨j, hj, hm⟩, ?_⟩)
    rw [hg]
    rfl
  obtain ⟨j, hj, rfl⟩ := List.mem_map.1 hi
  refine closed_generalise (σ := r.2.subst.fixAll (ms.zip tvs)) ?_ tvs r.1
  refine uvarOccurrences_fixAll (length_freshTyvars env.rigid ms.length) (nodup_eraseDups _)
    (fun m hm => himage ▸ OpenGroup.image?_of_mem_uvars hm) ?_
  rw [Subst.apply_eq, himage, ← Subst.apply_eq]
  exact hms j hj

theorem closed_inferGroup {env : Env} (henv : env.locals = []) (nameOf : String → CheckM Name)
    (js : List Job) : Returns (inferGroup env nameOf js) fun r => ∀ i ∈ r.2, i.2.scheme.Closed := by
  have houter : Returns (openGroup env nameOf js) (·.outer = []) := by
    refine .skip fun s => .skip fun ids => .skip fun r => .pure ?_
    rw [henv]
    rfl
  exact .bind houter fun g hg => closed_closeGroup env hg _

theorem closed_addIdents {d : Declaring} (hd : d.exports.Closed) {ids : Bound}
    (hids : ∀ i ∈ ids, i.2.scheme.Closed) : (addIdents d ids).exports.Closed := by
  unfold addIdents
  induction ids generalizing d with
  | nil => exact hd
  | cons i ids ih =>
    obtain ⟨hi, hids⟩ := List.forall_mem_cons.1 hids
    exact ih (hd.addEntity hi) hids

theorem closed_topGroup {d : Declaring} (hd : d.exports.Closed) (g : List Job) :
    Returns (topGroup d g) (·.2.exports.Closed) := by
  have hgroup (f : Typed.Bind × Bound → List Typed.Bind) : Returns (do
      let r ← inferGroup { globals := d.globals }
        (fun occ => return topName d.globals.module .value occ) g
      return (f r, addIdents d r.2)) (·.2.exports.Closed) :=
    .bind (closed_inferGroup rfl _ g) fun r hr => .pure (closed_addIdents hd hr)
  unfold topGroup
  split
  · exact .pure hd
  dsimp only
  split
  · split
    · exact .skip fun _ => .pure hd
    · exact hgroup fun r => [r.1]
  · exact hgroup fun r => [r.1]

theorem closed_topGroups {d : Declaring} (hd : d.exports.Closed) (gs : List (List Job)) :
    Returns (topGroups d gs) (·.2.exports.Closed) := by
  induction gs generalizing d with
  | nil => exact .pure hd
  | cons g gs ih =>
    exact .bind (closed_topGroup hd g) fun _ hr => .bind (ih hr) fun _ hr' => .pure hr'

/-- What a module makes known is closed, whether or not the module is accepted. -/
theorem closed_elaborate (m : Surface.Module) (imports : List Exports) :
    (elaborate m imports).declared.exports.Closed := by
  have hinitial : (Declaring.initial m imports).exports.Closed :=
    ⟨fun _ h => absurd h List.not_mem_nil, fun _ h => absurd h List.not_mem_nil⟩
  have hd : (declared m imports).2.exports.Closed := (Declare.closes_all m _ hinitial).1
  have hbinds : Returns (binds (declared m imports).2 (declared m imports).1 m)
      (·.2.exports.Closed) :=
    .bind (closed_topGroups hd _) fun _ hr => .skip fun _ => .pure hr
  exact hbinds _

-- The tree

variable {m : Surface.Module} {imports : List Exports} {checked : Checked}

/-- Each expression that has dictionaries is among those that were found. -/
theorem inferred_of_accepted (hno : ∀ r ∈ (elaborate m imports).state.reports, r.isError = false)
    {y : Typed.Expr} (hy : .expr y ∈ Typed.Bind.nodesOf (elaborate m imports).binds)
    {d : Typed.Hole} (hd : d ∈ y.dicts) : ∃ t, (y, t) ∈ (elaborate m imports).state.inferred := by
  let e := elaborate m imports
  let x : Finish := .plain e.state.subst e.state.inferred
  have hclosed : x.Closed := Finish.plain_closed
  obtain ⟨-, hnoted⟩ := (Finish.yields_binds (Finish.bindRule_noted hclosed) hclosed (H := True)
    (Finish.plain_knows _) (m := m) nofun nofun).2 _ ⟨.refl _, hno, fun _ he => he⟩ trivial
  obtain ⟨b, hb, hy⟩ := Typed.mem_nodesOf_binds.1 hy
  rcases hnoted b hb _ hy with ht | ⟨h, rfl⟩
  · exact ht
  · cases hd

/-- No hole of the tree has evidence before the solutions are looked up. -/
theorem unsolved_of_accepted (hi : ∀ x ∈ imports, Compiled x)
    (hno : ∀ r ∈ (elaborate m imports).state.reports, r.isError = false) :
    ∀ y, .expr y ∈ Typed.Bind.nodesOf (elaborate m imports).binds →
      ∀ d ∈ y.dicts, ∃ v q, d = .unsolved v q := by
  obtain ⟨hbalanced, -⟩ := balanced_elaborate (m := m) fun x hx => (hi x hx).wellFormed
  intro y hy d hd
  obtain ⟨t, ht⟩ := inferred_of_accepted hno hy hd
  obtain ⟨v, q, rfl, -⟩ := hbalanced.noted _ ht d hd
  exact ⟨v, q, rfl⟩

/-- Solutions refer to holes, through instances with contexts on rigid variables. -/
theorem open_solutions (hi : ∀ x ∈ imports, Compiled x) :
    ∀ p ∈ (elaborate m imports).state.solutions, p.2.Open := by
  obtain ⟨hbalanced, -⟩ := balanced_elaborate (m := m) fun x hx => (hi x hx).wellFormed
  rintro ⟨v, ev⟩ hp
  cases ev with
  | byParam d => trivial
  | byInstance i ts ds =>
    refine ⟨fun q hq => ?_, fun d hd => ?_⟩
    · obtain ⟨w, -, hw⟩ := (hbalanced.instances v i ts ds hp).context q hq
      rw [hw]
      rfl
    · obtain ⟨u, q, rfl, -⟩ := hbalanced.args _ hp d hd
      exact ⟨u, q, rfl⟩

/-- In the tree of a module that is accepted, in its identifiers, its exports and the evidence for its
constraints, types stand for themselves by the substitution that checking ends with: they have no
unification variables but those that nothing was found out about. What the module makes known has
none at all, and each of its constraints is on a variable that is quantified. -/
theorem closed_of_module (hi : ∀ x ∈ imports, Compiled x)
    (hm : module m imports = .ok checked) :
    let σ := (elaborate m imports).state.subst
    (∀ n ∈ Typed.Bind.nodesOf checked.binds, ∀ t ∈ n.types,
      σ.apply t = t ∧ ∀ k ∈ t.uvarOccurrences, σ.image? k = none) ∧
    checked.exports.Closed := by
  intro σ
  let e := elaborate m imports
  obtain ⟨hno, hbinds⟩ := of_module_eq_ok hm
  have hsettled : e.answers.Settled := Typed.Answers.settled_ofSolutions _ (open_solutions hi)
  have himages : e.answers.images = σ := Typed.images_ofSolutions _ _
  have hfixes : ∀ n ∈ Typed.Bind.nodesOf checked.binds, ∀ t ∈ n.types, σ.Fixes t := by
    intro n hn
    rw [hbinds, Typed.nodes_binds] at hn
    obtain ⟨n', hn', rfl⟩ := List.mem_map.1 hn
    rw [← himages]
    exact hsettled.node fun y hy => unsolved_of_accepted hi hno y (hy ▸ hn')
  refine ⟨fun n hn t ht => ⟨hfixes n hn t ht, fun k hk => (hfixes n hn t ht).image? hk⟩, ?_⟩
  rw [eq_of_module_eq_ok hm]
  exact closed_elaborate m imports

/-- In `f x = (\y -> x) s`, nothing is found out about the type at which `s` is used. -/
theorem closed_of_classModule :
    let constant : Surface.Expr := .lambda [.var "y" .unknown] (.var "x" .unknown) .unknown
    let m := classModule [.bind (function "f" "x" (.app constant (.var "s" .unknown) .unknown))]
    let σ := (elaborate m []).state.subst
    let checked := (run m []).checked
    module m [] = .ok checked ∧
    (∃ n ∈ Typed.Bind.nodesOf checked.binds, ∃ t ∈ n.types, t.uvarOccurrences ≠ []) ∧
    (∀ n ∈ Typed.Bind.nodesOf checked.binds, ∀ t ∈ n.types,
      σ.apply t = t ∧ ∀ k ∈ t.uvarOccurrences, σ.image? k = none) ∧
    checked.exports.Closed := by
  intro constant m σ checked
  have hm : module m [] = .ok checked := module_eq_ok (by decide +kernel)
  exact ⟨hm, by decide +kernel, closed_of_module (by simp) hm⟩

end Check

end TypeLens
