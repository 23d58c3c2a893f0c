import TypeLens.Proofs.Checking.Agreement
import TypeLens.Proofs.Checking.Supply

/-!
The types of top-level definitions in core terms. A definition abstracts over all type variables and
dictionaries of its group, and its identifier is declared with those that its own type mentions.
-/

namespace TypeLens

namespace Ty

theorem sizeOf_lt_fns {t u : Ty} (ts : List Ty) : sizeOf t < sizeOf (fns (u :: ts) t) := by
  induction ts generalizing u with
  | nil =>
    simp only [fns, List.foldr_cons, List.foldr_nil, fn, app.sizeOf_spec]
    omega
  | cons v ts ih =>
    have hlt := ih (u := v)
    simp only [fns, List.foldr_cons, fn, app.sizeOf_spec] at hlt ⊢
    omega

theorem sizeOf_le_fns (ts : List Ty) (t : Ty) : sizeOf t ≤ sizeOf (fns ts t) := by
  cases ts with
  | nil => exact Nat.le_refl _
  | cons u ts => exact Nat.le_of_lt (sizeOf_lt_fns ts)

theorem fns_injective {ts us : List Ty} {t : Ty} (h : fns ts t = fns us t) : ts = us := by
  induction ts generalizing us with
  | nil =>
    cases us with
    | nil => rfl
    | cons u us => exact absurd (congrArg sizeOf h) (Nat.ne_of_lt (sizeOf_lt_fns us))
  | cons v ts ih =>
    cases us with
    | nil => exact absurd (congrArg sizeOf h) (Nat.ne_of_gt (sizeOf_lt_fns ts))
    | cons u us =>
      simp only [fns, List.foldr_cons, fn, app.injEq, true_and] at h
      rw [h.1, ih h.2]

theorem fns_ne_forAll (ts us : List Ty) (tvs : List String) (t : Ty) :
    fns ts t ≠ .forAll tvs (fns us t) := by
  cases ts with
  | nil =>
    intro h
    have hsize := congrArg sizeOf h
    have hle := sizeOf_le_fns us t
    simp only [fns, List.foldr_nil, forAll.sizeOf_spec] at hsize hle
    omega
  | cons u ts =>
    intro h
    cases h

/-- A quantified type shows its variables and its context. -/
theorem quantify_eq_iff {tvs tvs' : List String} {ts ts' : List Ty} {t : Ty} :
    quantify tvs ts t = quantify tvs' ts' t ↔ tvs = tvs' ∧ ts = ts' := by
  refine ⟨fun h => ?_, fun h => by rw [h.1, h.2]⟩
  unfold quantify at h
  cases tvs with
  | nil =>
    cases tvs' with
    | nil => exact ⟨rfl, fns_injective h⟩
    | cons v tvs' => exact absurd h (fns_ne_forAll _ _ _ _)
  | cons u tvs =>
    cases tvs' with
    | nil => exact absurd h.symm (fns_ne_forAll _ _ _ _)
    | cons v tvs' =>
      simp only [List.isEmpty_cons, Bool.false_eq_true, if_false, forAll.injEq] at h
      exact ⟨h.1, fns_injective h.2⟩

end Ty

namespace Core

theorem type_tyLam {tvs : List String} {e : Term} {ts : List Ty} {t : Ty}
    (h : e.type = .ok (.fns ts t)) :
    (if tvs.isEmpty then e else .tyLam tvs e).type = .ok (.quantify tvs ts t) := by
  cases tvs with
  | nil => exact h
  | cons v tvs => simp [Term.type, h, Ty.quantify, bind, Except.bind, pure, Except.pure]

/-- The definition of an exported identifier takes all that its group abstracts over. -/
theorem type_exportBind (tvs : List String) (ds : List Typed.DictVar) (inner : List Bind)
    (x : Typed.Export) : ∃ e, Lower.exportBind tvs ds inner x =
      .single ⟨x.poly.name, x.poly.scheme.toTy⟩ e ∧
      e.type = .ok (.quantify tvs (ds.map (·.pred.ty)) x.mono.scheme.toTy) := by
  refine ⟨_, rfl, type_tyLam ?_⟩
  let params : List Binder := ds.map fun d => ⟨d.name, d.pred.ty⟩
  have htypes : params.map (·.ty) = ds.map (·.pred.ty) := by
    rw [List.map_map]
    rfl
  have hvar : (Lower.lets inner (.var x.mono.name x.mono.scheme.toTy)).type =
      .ok x.mono.scheme.toTy := type_lets _ _
  rw [← htypes]
  exact type_lams hvar

end Core

namespace Check

open Typed (Ident DictVar)

-- Dictionary parameters

/-- A parameter is for a constraint on a variable that the group generalises. -/
def Scoping.IsParam (sc : Scoping) (d : DictVar) : Prop :=
  ∃ m ∈ sc.generalised, d.pred.arg = .uvar m

theorem fate_eq_parameter {sc : Scoping} {σ : Subst} {ie : InstanceEnv} {ds : List DictVar}
    {p : Pred} {m : UVar} (h : sc.fate σ ie ds p = .parameter m) : m ∈ sc.generalised ∧ p.arg = .uvar m := by
  unfold Scoping.fate at h
  split at h
  · split at h <;> cases h
  · next k hk =>
    split at h
    · next hm =>
      cases h
      exact ⟨hm, hk⟩
    · split at h <;> cases h
  · split at h <;> cases h

variable {env : Env} {sc : Scoping}

theorem returns_solveOne {acc : Solved} (h : ∀ p ∈ acc.params, sc.IsParam p.2) (w : Wanted) :
    Returns (solveOne env sc acc w) fun r => ∀ p ∈ r.1.params, sc.IsParam p.2 := by
  unfold solveOne
  refine .skip fun p => .skip fun s => ?_
  split
  · exact .skip fun goals => .skip fun _ => .pure h
  · exact .skip fun _ => .pure h
  · next m hm =>
    obtain ⟨hm, hp⟩ := fate_eq_parameter hm
    split
    · exact .skip fun _ => .pure h
    · exact .skip fun n => .skip fun _ => .pure (Table.forall_mem_put h ⟨m, hm, hp⟩)
  · exact .pure h
  · exact .skip fun _ => .pure h
  · exact .skip fun _ => .pure h
  · exact .skip fun _ => .pure h

theorem returns_solveRound {acc : Solved} (h : ∀ p ∈ acc.params, sc.IsParam p.2)
    (ws : List Wanted) :
    Returns (solveRound env sc acc ws) fun r => ∀ p ∈ r.1.params, sc.IsParam p.2 := by
  induction ws generalizing acc with
  | nil => exact .pure h
  | cons w ws ih =>
    exact .bind (returns_solveOne h w) fun r hr => .bind (ih hr) fun r' hr' => .pure hr'

theorem returns_solveRounds (n : Nat) {acc : Solved} (h : ∀ p ∈ acc.params, sc.IsParam p.2)
    (ws : List Wanted) :
    Returns (solveRounds env sc n acc ws) fun r => ∀ p ∈ r.params, sc.IsParam p.2 := by
  induction n generalizing acc ws with
  | zero => exact .pure h
  | succ n ih => exact .bind (returns_solveRound h ws) fun r hr => ih hr _

theorem returns_solve (ws : List Wanted) :
    Returns (solve env sc ws) fun ds => ∀ d ∈ ds, sc.IsParam d := by
  refine .skip fun s => .bind (returns_solveRounds _ (by simp) ws) fun r hr => ?_
  refine .skip fun _ => .pure fun d hd => ?_
  obtain ⟨p, hp, rfl⟩ := List.mem_map.1 hd
  exact hr p hp

-- Groups

/-- The identifiers of a group have their names from `nameOf` and are not polymorphic. -/
theorem returns_groupIdents {nameOf : String → CheckM Name} {P : String × Ident → Prop}
    {bs : List (String × Span)}
    (hn : ∀ b ∈ bs, Returns (nameOf b.1) fun n => ∀ t, P (b.1, ⟨n, .mono t⟩)) {acc : Bound}
    (h : ∀ i ∈ acc, P i) : Returns (groupIdents nameOf acc bs) fun ids => ∀ i ∈ ids, P i := by
  induction bs generalizing acc with
  | nil => exact .pure h
  | cons b bs ih =>
    have hrest := fun b hb => hn b (List.mem_cons_of_mem _ hb)
    unfold groupIdents
    split
    · exact ih hrest h
    · refine .bind (hn b (List.mem_cons_self ..)) fun n hn => .skip fun t => ?_
      exact ih hrest (Table.forall_mem_put h (hn t))

theorem returns_openGroup (env : Env) {nameOf : String → CheckM Name} {P : String × Ident → Prop}
    {js : List Job}
    (hn : ∀ j ∈ js, ∀ b ∈ j.binders, Returns (nameOf b.1) fun n => ∀ t, P (b.1, ⟨n, .mono t⟩)) :
    Returns (openGroup env nameOf js) fun g => ∀ i ∈ g.monos, P i := by
  refine .skip fun _ => .bind (returns_groupIdents (fun b hb => ?_) fun _ h => ?_) fun _ hids =>
    .skip fun _ => .pure hids
  · obtain ⟨j, hj, hb⟩ := List.mem_flatMap.1 hb
    exact hn j hj b hb
  · exact absurd h List.not_mem_nil

/-- In the end, an exported identifier has the type that it has in its group, and if it quantifies
over all variables of the group, then it takes all dictionaries of the group. -/
def Exported (σ : Subst) : Typed.Bind → Prop
  | .abs tvs ds xs _ _ => ∀ x ∈ xs, x.mono.scheme = .mono x.mono.scheme.body ∧
      σ.apply x.poly.scheme.body = σ.apply x.mono.scheme.body ∧
      (x.poly.scheme.tvs = tvs →
        x.poly.scheme.preds.map σ.applyPred = ds.map fun d => σ.applyPred d.pred)
  | _ => False

theorem applyPred_applyPred {σ σ' : Subst} (h : σ.Grows σ') (p : Pred) :
    σ'.applyPred (σ.applyPred p) = σ'.applyPred p :=
  congrArg (Pred.mk p.cls) (h p.arg)

/-- A variable that is made rigid takes one of the names. -/
theorem exists_apply_fixAll {σ : Subst} {ms : List UVar} {tvs : List String}
    (hl : tvs.length = ms.length) (hn : ms.Nodup) (hσ : ∀ m ∈ ms, σ.image? m = none) {m : UVar}
    (hm : m ∈ ms) : ∃ v ∈ tvs, (σ.fixAll (ms.zip tvs)).apply (.uvar m) = .var v := by
  have hsub := zip_fst_sublist ms tvs
  have hself : σ.apply (.uvar m) = .uvar m := by simp [Subst.apply_eq, Ty.substUvars, hσ m hm]
  have hkeys : (ms.zip tvs).map Prod.fst = ms := List.map_fst_zip (Nat.le_of_eq hl.symm)
  obtain ⟨v, hv⟩ : ∃ v, (ms.zip tvs).lookup m = some v := by
    cases h : (ms.zip tvs).lookup m with
    | some v => exact ⟨v, rfl⟩
    | none =>
      rw [List.lookup_eq_none_iff] at h
      rw [← hkeys] at hm
      obtain ⟨p, hp, rfl⟩ := List.mem_map.1 hm
      simpa using h p hp
  obtain ⟨l₁, l₂, hzip, -⟩ := List.lookup_eq_some_iff.1 hv
  have hmem : (m, v) ∈ ms.zip tvs := by simp [hzip]
  refine ⟨v, (List.of_mem_zip hmem).2, ?_⟩
  rw [Subst.apply_fixAll (hn.sublist hsub) fun p hp =>
    hσ p.1 (hsub.subset (List.mem_map_of_mem hp)), hself]
  simp [Ty.substUvars, hv]

theorem exported_closeGroup {g : OpenGroup} (loc : Span)
    (hg : ∀ i ∈ g.monos, i.2.scheme = .mono i.2.scheme.body) (s : State) {σ : Subst}
    (hσ : ((closeGroup env g loc).run s).2.subst.Grows σ) :
    Exported σ ((closeGroup env g loc).run s).1.1 := by
  let ms := g.uvars s.subst
  let s' := ((solve env ⟨ms, g.outer⟩ g.raised).run s).2
  let ds := ((solve env ⟨ms, g.outer⟩ g.raised).run s).1
  let tvs := freshTyvars env.rigid ms.length
  let σ' := s'.subst.fixAll (ms.zip tvs)
  have hgrow : σ'.Grows σ := hσ
  have hds : ∀ d ∈ ds, ∃ v ∈ tvs, (σ'.applyPred d.pred).arg = .var v := by
    intro d hd
    obtain ⟨m, hm, harg⟩ := returns_solve g.raised s d hd
    have himage : s'.subst.image? = s.subst.image? := (quiet_solve env _ g.raised).image? s
    have hfix := exists_apply_fixAll (σ := s'.subst) (length_freshTyvars env.rigid ms.length)
      (nodup_eraseDups _) (fun k hk => himage ▸ OpenGroup.image?_of_mem_uvars hk) hm
    have happly : (σ'.applyPred d.pred).arg = σ'.apply (.uvar m) := by rw [← harg]; rfl
    rwa [happly]
  intro x hx
  obtain ⟨p, hp, rfl⟩ : ∃ p ∈ g.monos, x = ⟨generalise σ' tvs ds p.2, p.2⟩ := by
    obtain ⟨q, hq, rfl⟩ := List.mem_map.1 hx
    let poly (m : String × Ident) : String × Ident := (m.1, generalise σ' tvs ds m.2)
    have hq : q ∈ (g.monos.map poly).zip g.monos := hq
    rw [← List.map_prod_right_eq_zip] at hq
    obtain ⟨p, hp, rfl⟩ := List.mem_map.1 hq
    exact ⟨p, hp, rfl⟩
  refine ⟨hg p hp, hgrow _, fun htvs => ?_⟩
  have hown : tvs.filter (· ∈ (σ'.apply p.2.scheme.body).freeVars) = tvs := htvs
  have hpreds : (generalise σ' tvs ds p.2).scheme.preds = ds.map fun d => σ'.applyPred d.pred := by
    refine List.filter_eq_self.2 fun q hq => ?_
    obtain ⟨d, hd, rfl⟩ := List.mem_map.1 hq
    obtain ⟨v, hv, harg⟩ := hds d hd
    simp only [harg, hown]
    exact decide_eq_true hv
  rw [hpreds, List.map_map]
  exact List.map_congr_left fun d _ => applyPred_applyPred hgrow d.pred

theorem exported_checkSigned (env : Env) (poly : Ident) (j : FunJob) (σ : Subst) :
    Returns (checkSigned env poly j) (Exported σ) := by
  let dict (p : Pred) : CheckM DictVar := do return ⟨← dictName env p.cls, p⟩
  have hgivens : Returns (poly.scheme.preds.mapM dict)
      fun ds => List.Forall₂ (fun p d => d.pred = p) poly.scheme.preds ds :=
    .mapM fun p _ => .skip fun n => .pure rfl
  refine .bind hgivens fun ds hds => .skip fun r => .skip fun s => .skip fun _ => .pure ?_
  have hpreds {ps : List Pred} {ds : List DictVar}
      (h : List.Forall₂ (fun p d => d.pred = p) ps ds) : ds.map (·.pred) = ps := by
    induction h with
    | nil => rfl
    | cons hd _ ih => rw [List.map_cons, hd, ih]
  refine List.forall_mem_singleton.2 ⟨rfl, rfl, fun _ => ?_⟩
  rw [← hpreds hds, List.map_map]
  rfl

namespace Finish

theorem bindRule_exported {x : Finish} (hx : x.Closed) : x.BindRule (Exported x.subst) where
  group {H env} hk nameOf hn js h := by
    refine (yields_inferGroup hx hk hn h).of_before fun s hb => ?_
    have hmono : Returns (openGroup env nameOf js) fun g =>
        ∀ i ∈ g.monos, i.2.scheme = .mono i.2.scheme.body :=
      returns_openGroup env fun _ _ _ _ _ _ => rfl
    exact exported_closeGroup _ (hmono s) _ hb.grows
  signed {H env} hk poly j h :=
    (yields_checkSigned hx hk poly h).of_before fun s _ => exported_checkSigned env poly j _ s

end Finish

/-- Each identifier that a group exports quantifies over all type variables of the group. -/
def Uniform : Typed.Bind → Prop
  | .abs tvs _ xs _ _ => ∀ x ∈ xs, x.poly.scheme.tvs = tvs
  | _ => True

instance decidableUniform : DecidablePred Uniform
  | .abs .. => inferInstanceAs (Decidable (∀ x ∈ _, _))
  | .fn .. | .pat .. => inferInstanceAs (Decidable True)

theorem lowered_export_iff {a : Typed.Answers} {tvs : List String} {ds : List DictVar}
    {inner : List Core.Bind} {x : Typed.Export} (hmono : x.mono.scheme = .mono x.mono.scheme.body)
    (hbody : a.images.apply x.poly.scheme.body = a.images.apply x.mono.scheme.body)
    (hpreds : x.poly.scheme.tvs = tvs →
      x.poly.scheme.preds.map a.images.applyPred = ds.map fun d => a.images.applyPred d.pred) :
    (∀ p ∈ (Core.Lower.exportBind tvs (ds.map a.dictVar) inner
        ⟨a.ident x.poly, a.ident x.mono⟩).pairs, p.rhs.type = .ok p.binder.ty) ↔
      x.poly.scheme.tvs = tvs := by
  obtain ⟨e, he, htype⟩ := Core.type_exportBind tvs (ds.map a.dictVar) inner
    ⟨a.ident x.poly, a.ident x.mono⟩
  have hto : (a.ident x.mono).scheme.toTy = a.images.apply x.mono.scheme.body := by
    rw [Typed.Answers.ident, hmono]
    rfl
  have hdicts : (ds.map a.dictVar).map (·.pred.ty) =
      (ds.map fun d => a.images.applyPred d.pred).map Pred.ty := by
    rw [List.map_map, List.map_map]
    rfl
  have hbinder : (a.ident x.poly).scheme.toTy = .quantify x.poly.scheme.tvs
      ((x.poly.scheme.preds.map a.images.applyPred).map Pred.ty)
      (a.images.apply x.mono.scheme.body) := by
    rw [← hbody]
    rfl
  have hpair : (∀ p ∈ (Core.Bind.single ⟨x.poly.name, (a.ident x.poly).scheme.toTy⟩ e).pairs,
      p.rhs.type = .ok p.binder.ty) ↔ e.type = .ok (a.ident x.poly).scheme.toTy :=
    List.forall_mem_singleton
  rw [he]
  refine hpair.trans ?_
  rw [htype, hto, hdicts, hbinder, Except.ok.injEq, Ty.quantify_eq_iff]
  refine ⟨fun h => h.1.symm, fun h => ⟨h.symm, ?_⟩⟩
  rw [hpreds h]

theorem binds_eq_map (a : Typed.Answers) (bs : List Typed.Bind) : a.binds bs = bs.map a.bind := by
  induction bs with
  | nil => rfl
  | cons b bs ih =>
    rw [Typed.Answers.binds, ih]
    rfl

/-- All that was bound in a module is exported as it is in the end. -/
theorem exported_of_module {m : Surface.Module} {imports : List Exports}
    (hno : ∀ r ∈ (elaborate m imports).state.reports, r.isError = false) :
    ∀ b ∈ (elaborate m imports).binds, Exported (elaborate m imports).state.subst b := by
  let e := elaborate m imports
  let x : Finish := .plain e.state.subst e.state.inferred
  have hx : x.Closed := Finish.plain_closed
  have hbefore : x.Before e.state := ⟨.refl _, hno, fun _ he => he⟩
  exact ((Finish.yields_binds (Finish.bindRule_exported hx) hx (H := True) (Finish.plain_knows _)
    (m := m) nofun nofun).2 _ hbefore trivial).2

/-- In a module that is accepted, the definitions that a top-level binding is lowered to have the
types that they are declared with if and only if each identifier of its group quantifies over all
type variables of the group. -/
theorem lowered_iff_uniform {m : Surface.Module} {imports : List Exports} {checked : Checked}
    (hm : module m imports = .ok checked) (c : Core.Context) :
    ∀ b ∈ checked.binds, ∀ out, Core.lowerBind c b = .ok out →
      ((∀ d ∈ out, ∀ p ∈ d.pairs, p.rhs.type = .ok p.binder.ty) ↔ Uniform b) := by
  intro b hb out hout
  let e := elaborate m imports
  obtain ⟨hno, hbinds⟩ := of_module_eq_ok hm
  have himages : e.answers.images = e.state.subst := Typed.images_ofSolutions _ _
  rw [hbinds, binds_eq_map] at hb
  obtain ⟨b₀, hb₀, rfl⟩ := List.mem_map.1 hb
  have hexported := exported_of_module hno b₀ hb₀
  rw [← himages] at hexported
  cases b₀ with
  | fn | pat => exact hexported.elim
  | abs tvs ds xs bs l =>
    obtain ⟨n, hrun⟩ := Core.run_of_lowerBind hout
    obtain ⟨inner, -, hpure⟩ := Core.run_bind_eq_ok.1 hrun
    let xs' : List Typed.Export := xs.map fun x => ⟨e.answers.ident x.poly, e.answers.ident x.mono⟩
    have hout' : out = xs'.map (Core.Lower.exportBind tvs (ds.map e.answers.dictVar) inner.1) :=
      Core.run_pure_eq_ok hpure
    have huniform : Uniform (e.answers.bind (.abs tvs ds xs bs l)) ↔
        ∀ x ∈ xs, x.poly.scheme.tvs = tvs := by
      simp only [Typed.Answers.bind, Uniform, List.forall_mem_map]
      rfl
    rw [huniform, hout']
    simp only [xs', List.forall_mem_map]
    refine forall₂_congr fun x hx => ?_
    obtain ⟨hmono, hbody, hpreds⟩ := hexported x hx
    exact lowered_export_iff hmono hbody hpreds

/-- The module with `f x = g x` and `g x = f x`. -/
def mutualModule : Surface.Module :=
  let call (f : String) : Surface.Expr := .app (.var f .unknown) (.var "x" .unknown) .unknown
  { Surface.Module.empty "M" with
    decls := [.bind (function "f" "x" (call "g")), .bind (function "g" "x" (call "f"))] }

/-- Both functions are as polymorphic as their group. -/
theorem lowered_of_mutualModule :
    module mutualModule [] = .ok (run mutualModule []).checked ∧
    (run mutualModule []).checked.binds.length = 1 ∧
    ∀ b ∈ (run mutualModule []).checked.binds, ∀ out,
      Core.lowerBind (elaborate mutualModule []).context b = .ok out →
        ∀ d ∈ out, ∀ p ∈ d.pairs, p.rhs.type = .ok p.binder.ty := by
  have hm : module mutualModule [] = .ok (run mutualModule []).checked :=
    module_eq_ok (by decide +kernel)
  have huniform : ∀ b ∈ (run mutualModule []).checked.binds, Uniform b := by decide +kernel
  refine ⟨hm, by decide +kernel, fun b hb out hout => ?_⟩
  exact (lowered_iff_uniform hm _ b hb out hout).2 (huniform b hb)

/-- The module with `class S a where s :: a -> a`, `data P a b = P a b` and
`P i j = P s (\y -> y)`. -/
def pairModule : Surface.Module :=
  let tyvar (v : String) : Surface.TypeExpr := .var v .unknown
  let app (f a : Surface.Expr) : Surface.Expr := .app f a .unknown
  let method : Surface.TypeSig :=
    ⟨[("s", .unknown)], ⟨[], .fn (tyvar "a") (tyvar "a") .unknown, .unknown⟩, .unknown⟩
  let pair : Surface.DataDecl :=
    ⟨"P", ["a", "b"], [⟨"P", [tyvar "a", tyvar "b"], .unknown⟩], .unknown, .unknown⟩
  let identity : Surface.Expr := .lambda [.var "y" .unknown] (.var "y" .unknown) .unknown
  let rhs := app (app (.con "P" .unknown) (.var "s" .unknown)) identity
  let lhs : Surface.Pat := .con "P" [.var "i" .unknown, .var "j" .unknown] .unknown
  { Surface.Module.empty "M" with
    decls := [.cls ⟨"S", "a", [method], .unknown, .unknown⟩, .data pair,
      .bind (.pat (.mk lhs rhs .unknown))] }

/-- Definitions need not have the types that they are declared with: those of `i` and `j` both
abstract over what either of them needs. -/
theorem lowered_ne_declared :
    let e := elaborate pairModule []
    let i : Ty := .fn (.var "a") (.var "a")
    let j : Ty := .fn (.var "b") (.var "b")
    let dict : Ty := .pred ⟨"S", "M", .type, 0⟩ (.var "a")
    (run pairModule []).reports.length = 0 ∧
    ((run pairModule []).checked.binds.map fun b =>
      (Core.lowerBind e.context b).toOption.map fun ds =>
        (ds.flatMap Core.Bind.pairs).map fun p => (p.binder.ty, p.rhs.type.toOption)) =
      [some [(.quantify ["a"] [dict] i, some (.quantify ["a", "b"] [dict] i)),
        (.quantify ["b"] [] j, some (.quantify ["a", "b"] [dict] j))]] := by
  decide +kernel

end Check

end TypeLens
