import TypeLens.Proofs.Checking.Formation
import TypeLens.Proofs.Typing.Rules

/-!
Patterns, expressions and bindings only lead to types that have their arguments.
-/

namespace TypeLens

namespace Check

open Typed (DictVar Ident)

variable {R : Arities} {env : Env} {pending : List Wanted}

-- Patterns

/-- The types of bound identifiers have their arguments. -/
def Bound.Formed (R : Arities) (b : Bound) : Prop := ∀ i ∈ b, i.2.scheme.Formed R

theorem Bound.formed_nil : Bound.Formed R [] := fun _ h => absurd h List.not_mem_nil

theorem Bound.Formed.put {b : Bound} (hb : b.Formed R) {occ : String} {i : Ident}
    (hi : i.scheme.Formed R) : Bound.Formed R (b.put occ i) := Table.forall_mem_put hb hi

theorem Bound.Formed.of_get? {b : Bound} (hb : b.Formed R) {occ : String} {i : Ident}
    (h : b.get? occ = some i) : i.scheme.Formed R := hb _ (Table.mem_of_get? h)

theorem forms_patIdent {group : Bound} (hgroup : group.Formed R) (occ : String) {t : Ty}
    (ht : t.Formed R) (loc : Span) :
    Forms R (patIdent env group occ t loc) fun i => i.scheme.Formed R := by
  unfold patIdent
  split
  · next i hi =>
    have hi := hgroup.of_get? hi
    exact .bind (forms_unify hi.body ht loc) fun _ _ => .pure hi
  · exact forms_newLocal env occ ht

section

variable (hR : R.Builtin) (henv : env.Formed R)
include hR henv

omit hR in
theorem formed_of_resolveCon_ok {occ : String} {c : DataCon}
    (h : resolveCon env.globals occ = .ok c) : c.Formed R := by
  obtain ⟨n, -, hc⟩ := Typing.resolveCon_ok h
  exact henv.globals.of_entity? hc

set_option linter.unusedSectionVars false in
mutual

theorem forms_checkPat {group : Bound} (hgroup : group.Formed R) :
    ∀ (p : Surface.Pat) {t : Ty} (_ : t.Formed R) {b : Bound} (_ : b.Formed R),
    Forms R ((checkPat env group p t).run b) fun r => r.2.Formed R
  | .var n l, t, ht, b, hb => by
    unfold checkPat
    refine .bindPat (P := fun r => r.2.Formed R) (.pure hb) fun r hr => ?_
    refine .bindPat (forms_reportIf _ (p := .definedTwice n) trivial l).lift fun r' hr' => ?_
    refine .bindPat (forms_patIdent hgroup n ht l).lift fun i hi => ?_
    refine .bindPat (P := fun r => r.2.Formed R) (.pure ?_) fun _ hr => .pure hr
    rw [hi.2, hr'.2]
    exact hr.put hi.1
  | .wild l, t, _, b, hb => by
    unfold checkPat
    exact .pure hb
  | .lit v l, t, ht, b, hb => by
    unfold checkPat
    refine .bindPat (forms_unify ht (Ty.formed_literal hR v) l).lift fun r hr => .pure ?_
    rw [hr.2]
    exact hb
  | .par p l, t, ht, b, hb => by
    unfold checkPat
    exact .bindPat (forms_checkPat hgroup p ht hb) fun _ hr => .pure hr
  | .con n ps l, t, ht, b, hb => by
    unfold checkPat
    split
    · next e he =>
      refine .bindPat (forms_report (formed_of_resolveCon he) l).lift fun r hr => ?_
      rw [hr.2]
      exact .bindPat (forms_freshPats hgroup ps hb) fun _ hr => .pure hr
    next c hc =>
    have hc := formed_of_resolveCon_ok henv hc
    split
    · refine .bindPat (forms_freshFor _).lift fun r hts => ?_
      have hresult := ((hc.scheme.body.splitFns ps.length).2).at c.scheme.tvs hts.1
      refine .bindPat (forms_unify ht hresult l).lift fun r' hr' => ?_
      rw [hr'.2, hts.2]
      refine .bindPat (forms_checkPats hgroup ps ?_ hb) fun _ hr => .pure hr
      exact List.forall_mem_map.2 fun u hu => (hc.args u hu).at _ hts.1
    · refine .bindPat (forms_report (p := .patternArity ..) trivial l).lift fun r hr => .pure ?_
      rw [hr.2]
      exact hb

theorem forms_checkPats {group : Bound} (hgroup : group.Formed R) :
    ∀ (ps : List Surface.Pat) {ts : List Ty} (_ : ∀ t ∈ ts, t.Formed R) {b : Bound}
    (_ : b.Formed R), Forms R ((checkPats env group ps ts).run b) fun r => r.2.Formed R
  | p :: ps, t :: ts, hts, b, hb => by
    unfold checkPats
    obtain ⟨ht, hts⟩ := List.forall_mem_cons.1 hts
    refine .bindPat (forms_checkPat hgroup p ht hb) fun r hr => ?_
    exact .bindPat (forms_checkPats hgroup ps hts hr) fun _ hr' => .pure hr'
  | [], _, _, b, hb => by
    unfold checkPats
    exact .pure hb
  | _ :: _, [], _, b, hb => by
    unfold checkPats
    exact .pure hb

theorem forms_freshPats {group : Bound} (hgroup : group.Formed R) :
    ∀ (ps : List Surface.Pat) {b : Bound} (_ : b.Formed R),
    Forms R ((freshPats env group ps).run b) fun r => r.2.Formed R
  | [], b, hb => by
    unfold freshPats
    exact .pure hb
  | p :: ps, b, hb => by
    unfold freshPats
    refine .bindPat forms_freshUvar.lift fun r hr => ?_
    rw [hr.2]
    exact .bindPat (forms_checkPat hgroup p hr.1 hb) fun _ hr' => forms_freshPats hgroup ps hr'

end

end

-- Names and operators

/-- Checking gives an expression a type that has its arguments. -/
abbrev FormsTyped (R : Arities) (act : CheckM Inferred) : Prop := Forms R act fun r => r.2.Formed R

theorem forms_unknownName (env : Env) (occ : String) (loc : Span) :
    FormsTyped R (unknownName env occ loc) :=
  .bind forms_freshUvar fun _ ht => .bind (forms_newLocal env occ ht) fun _ _ => forms_note rfl ht

section

variable (henv : env.Formed R)
include henv

theorem forms_inferVar (occ : String) (loc : Span) : FormsTyped R (inferVar env occ loc) := by
  unfold inferVar
  split
  · next i hi =>
    obtain ⟨l₁, l₂, hl, -⟩ := List.lookup_eq_some_iff.1 hi
    have hmem : (occ, i) ∈ env.locals := hl ▸ by simp
    exact forms_occurrence (henv.locals _ hmem) occ loc
  split
  · next he =>
    exact .bind (forms_report (formed_of_resolve he) loc) fun _ _ => forms_unknownName env occ loc
  split
  · next hc => exact forms_occurrence (henv.globals.of_entity? hc).scheme occ loc
  · next hi =>
    refine forms_occurrence ?_ occ loc
    exact henv.globals.of_entity? hi
  · exact forms_unknownName env occ loc

theorem forms_inferCon (occ : String) (loc : Span) : FormsTyped R (inferCon env occ loc) := by
  unfold inferCon
  split
  · next he =>
    exact .bind (forms_report (formed_of_resolve he) loc) fun _ _ => forms_unknownName env occ loc
  split
  · next hc => exact forms_occurrence (henv.globals.of_entity? hc).scheme occ loc
  · exact .bind (forms_report (p := .notADataCon occ) trivial loc) fun _ _ =>
      forms_unknownName env occ loc

theorem forms_inferOp (op : Surface.OpRef) : FormsTyped R (inferOp env op) := by
  unfold inferOp
  split
  · exact forms_inferCon henv _ _
  · exact forms_inferVar henv _ _

variable (hR : R.Builtin)
include hR

theorem forms_inferTree {t : PartTree} (h : ∀ p ∈ t.operands, FormsTyped R p.infer) :
    FormsTyped R (inferTree env t) := by
  induction t with
  | leaf p => exact h p (List.mem_singleton.2 rfl)
  | node l op r ihl ihr =>
    simp only [OpTree.operands, List.mem_append] at h
    unfold inferTree
    refine .bind (ihl fun p hp => h p (.inl hp)) fun l' hl => ?_
    refine .bind (forms_inferOp henv op) fun op' hop => ?_
    refine .bind (ihr fun p hp => h p (.inr hp)) fun r' hr => ?_
    refine .bind forms_freshUvar fun res hres => .bind (forms_zonk hop) fun t ht => ?_
    split
    · next p q u hu =>
      obtain ⟨hargs, hres⟩ := ht.splitFns 2
      rw [hu] at hargs hres
      refine .bind (forms_unify (hargs p (by simp)) hl _) fun _ _ => ?_
      exact .bind (forms_unify (hargs q (by simp)) hr _) fun _ _ => forms_note rfl hres
    · have hfns : (Ty.fns [l'.2, r'.2] res).Formed R :=
        Ty.formed_fns hR (by simpa using ⟨hl, hr⟩) hres
      exact .bind (forms_unify hfns hop _) fun _ _ => forms_note rfl hres

theorem forms_inferRow {first : Part} {rest : List (Surface.OpRef × Part)}
    (hf : FormsTyped R first.infer) (hr : ∀ p ∈ rest, FormsTyped R p.2.infer) :
    FormsTyped R (inferRow env first rest) := by
  refine .bind (.forM fun c _ => forms_report (p := .fixityConflict ..) trivial _) fun _ _ => ?_
  refine forms_inferTree henv hR fun p hp => ?_
  rw [OpTree.operands_resolve] at hp
  rcases List.mem_cons.1 hp with rfl | hp
  · exact hf
  · obtain ⟨q, hq, rfl⟩ := List.mem_map.1 hp
    exact hr q hq

omit henv hR in
theorem forms_inferElems {elemTy : Ty} (ht : elemTy.Formed R) {ps : List Part}
    (h : ∀ p ∈ ps, FormsTyped R p.infer) : Forms R (inferElems elemTy ps) fun _ => True := by
  induction ps with
  | nil => exact .pure trivial
  | cons p ps ih =>
    refine .bind (h p (List.mem_cons_self ..)) fun e he => .bind (forms_unify ht he _) fun _ _ => ?_
    exact .bind (ih fun q hq => h q (List.mem_cons_of_mem _ hq)) fun es _ => .pure trivial

end

-- Equations and bindings

def Row.Forming (R : Arities) (r : Row) : Prop := ∀ env : Env, env.Formed R → FormsTyped R (r.rhs env)

def FunJob.Forming (R : Arities) (j : FunJob) : Prop := ∀ r ∈ j.first :: j.rest, r.Forming R

def Job.Forming (R : Arities) : Job → Prop
  | .fn j => j.Forming R
  | .pat _ rhs _ => ∀ env : Env, env.Formed R → FormsTyped R (rhs env)

structure GroupFormed (R : Arities) (g : Typed.MatchGroup) : Prop where
  args : ∀ t ∈ g.argTys, t.Formed R
  res : g.resTy.Formed R

section

variable (hR : R.Builtin) (henv : env.Formed R)
include hR henv

theorem forms_checkRow {argTys : List Ty} (hargs : ∀ t ∈ argTys, t.Formed R) {resTy : Ty}
    (hres : resTy.Formed R) {r : Row} (h : r.Forming R) :
    Forms R (checkRow env argTys resTy r) fun _ => True :=
  .bind (forms_checkPats hR henv Bound.formed_nil r.pats hargs Bound.formed_nil) fun _ hb =>
    .bind (h _ (henv.extend hb)) fun _ ht => .bind (forms_unify hres ht _) fun _ _ => .pure trivial

theorem forms_checkGroup {expected : Ty} (he : expected.Formed R) {first : Row} {rest : List Row}
    (h : ∀ r ∈ first :: rest, r.Forming R) :
    Forms R (checkGroup env expected first rest) (GroupFormed R) :=
  .bind (forms_freshFor _) fun _ hts => .bind forms_freshUvar fun _ ht =>
    .bind (forms_unify he (Ty.formed_fns hR hts ht) _) fun _ _ =>
      .bind (.mapM fun r hr => forms_checkRow hR henv hts ht (h r hr)) fun _ _ => .pure ⟨hts, ht⟩

theorem forms_check {j : Job} (h : j.Forming R) {group : Bound} (hgroup : group.Formed R) :
    Forms R (j.check env group) fun _ => True := by
  cases j with
  | fn j =>
    have hfn {i : Ident} (hi : i.scheme.Formed R) : Forms R
        (do return Typed.Bind.fn i (← checkGroup env i.scheme.body j.first j.rest) j.loc)
        fun _ => True :=
      .bind (forms_checkGroup hR henv hi.body h) fun _ _ => .pure trivial
    unfold Job.check
    dsimp only
    split
    · next i hi => exact .bind (P := fun i => i.scheme.Formed R) (.pure (hgroup.of_get? hi)) fun i => hfn
    · exact .bind forms_freshUvar fun t ht => .bind (forms_newLocal _ _ ht) fun i => hfn
  | pat p rhs l =>
    exact .bind (h env henv) fun e he =>
      .bind (forms_checkPat hR henv hgroup p he Bound.formed_nil) fun _ _ => .pure trivial

omit hR henv in
theorem forms_groupIdents {nameOf : String → CheckM Name}
    (hn : ∀ occ, Forms R (nameOf occ) fun _ => True) {acc : Bound} (hacc : acc.Formed R)
    (bs : List (String × Span)) : Forms R (groupIdents nameOf acc bs) (Bound.Formed R) := by
  induction bs generalizing acc with
  | nil => exact .pure hacc
  | cons b bs ih =>
    unfold groupIdents
    split
    · exact ih hacc
    · exact .bind (hn _) fun n _ => .bind forms_freshUvar fun t ht =>
        ih (hacc.put (Scheme.formed_mono ht))

theorem formed_openGroup {nameOf : String → CheckM Name}
    (hn : ∀ occ, Forms R (nameOf occ) fun _ => True) {js : List Job} (h : ∀ j ∈ js, j.Forming R)
    {s : State} (hs : s.Formed R pending) :
    ((openGroup env nameOf js).run s).2.Formed R
      (pending ++ ((openGroup env nameOf js).run s).1.raised) ∧
    ((openGroup env nameOf js).run s).1.monos.Formed R := by
  obtain ⟨hs', hmonos⟩ :=
    forms_groupIdents hn Bound.formed_nil (js.flatMap Job.binders) pending s hs
  have hjobs : Forms R (js.mapM (Job.check (env.extend
      ((groupIdents nameOf [] (js.flatMap Job.binders)).run s).1)
      ((groupIdents nameOf [] (js.flatMap Job.binders)).run s).1)) fun _ => True :=
    (Forms.mapM fun j hj => forms_check hR (henv.extend hmonos) (h j hj) hmonos).mono
      fun _ _ => trivial
  exact ⟨(formed_collecting hjobs hs').1, hmonos⟩

omit hR henv in
/-- A generalised identifier keeps constraints on variables only. -/
theorem formed_generalise {σ : Subst} (hσ : σ.Formed R) {mono : Ident}
    (h : mono.scheme.body.Formed R) (tvs : List String) (dicts : List DictVar) :
    (generalise σ tvs dicts mono).scheme.Formed R := by
  refine ⟨hσ.apply h, fun p hp => ?_⟩
  obtain ⟨-, hown⟩ := List.mem_filter.1 hp
  split at hown
  · next hv =>
    rw [hv]
    rfl
  · cases hown

omit hR in
theorem formed_closeGroup {o : OpenGroup} (hmonos : o.monos.Formed R) (loc : Span) {s : State}
    (hs : s.Formed R (pending ++ o.raised)) :
    ((closeGroup env o loc).run s).2.Formed R pending ∧
      Bound.Formed R ((closeGroup env o loc).run s).1.2 := by
  let sc : Scoping := ⟨o.uvars s.subst, o.outer⟩
  let tvs := freshTyvars env.rigid (o.uvars s.subst).length
  let s' := ((solve env sc o.raised).run s).2
  have hsolve : s'.Formed R pending := formed_solve henv sc hs
  have hsub := zip_fst_sublist (o.uvars s.subst) tvs
  have hn := (nodup_eraseDups ((uvarsOf s.subst o.monos).filter (· ∉ o.outer))).sublist hsub
  have hfree : ∀ p ∈ (o.uvars s.subst).zip tvs, s'.subst.image? p.1 = none := fun p hp => by
    rw [(quiet_solve env sc o.raised).image? s]
    exact OpenGroup.image?_of_mem_uvars (hsub.subset (List.mem_map_of_mem hp))
  have himages := hsolve.images.fixAll hn hfree
  refine ⟨hsolve.later (Subst.grows_fixAll hn hfree) himages (fun _ hr => .inl hr) rfl rfl
    (fun _ hw => hw) fun _ he => .inl he, fun i hi => ?_⟩
  obtain ⟨j, hj, rfl⟩ := List.mem_map.1 hi
  exact formed_generalise himages (hmonos j hj).body _ _

theorem forms_inferGroup {nameOf : String → CheckM Name}
    (hn : ∀ occ, Forms R (nameOf occ) fun _ => True) {js : List Job} (h : ∀ j ∈ js, j.Forming R) :
    Forms R (inferGroup env nameOf js) fun r => r.2.Formed R := fun _ _ hs =>
  have ⟨hs', hmonos⟩ := formed_openGroup hR henv hn h hs
  formed_closeGroup henv hmonos _ hs'

theorem forms_inferGroups {gs : List (List Job)} (h : ∀ js ∈ gs, ∀ j ∈ js, j.Forming R) :
    Forms R (inferGroups env gs) fun r => r.2.Formed R := by
  induction gs generalizing env with
  | nil => exact .pure henv
  | cons js gs ih =>
    refine .bind (forms_inferGroup hR henv (forms_localName env) (h js (List.mem_cons_self ..)))
      fun r hr => ?_
    exact .bind (ih (henv.extend hr) fun js hjs => h js (List.mem_cons_of_mem _ hjs)) fun _ hr' =>
      .pure hr'

omit hR henv in
theorem forms_reportRepeated (seen : List String) (bs : List (String × Span)) :
    Forms R (reportRepeated seen bs) fun _ => True := by
  induction bs generalizing seen with
  | nil => exact .pure trivial
  | cons b bs ih =>
    exact .bind (forms_reportIf _ (p := .definedTwice b.1) trivial _) fun _ _ => ih _

theorem forms_inferLocals {js : List (Surface.Dependencies × Job)}
    (h : ∀ j ∈ js, j.2.Forming R) : Forms R (inferLocals env js) fun r => r.2.Formed R := by
  refine .bind (forms_reportRepeated _ _) fun _ _ => ?_
  refine forms_inferGroups hR henv fun js' hjs j hj => ?_
  obtain ⟨y, hy, rfl⟩ := Surface.mem_of_mem_groupsOf hjs hj
  exact h y hy

theorem forms_checkSigned {poly : Ident} (hpoly : poly.scheme.Formed R) {j : FunJob}
    (h : j.Forming R) : Forms R (checkSigned env poly j) fun _ => True := by
  intro pending s hs
  refine ⟨?_, trivial⟩
  rw [run_checkSigned]
  let givens : CheckM (List DictVar) :=
    poly.scheme.preds.mapM fun p => return ⟨← dictName env p.cls, p⟩
  have hgivens : Forms R givens fun _ => True :=
    (Forms.mapM (S := fun _ => True) fun p _ =>
      .bind (forms_localName _ _) fun _ _ => .pure trivial).mono fun _ _ => trivial
  have hgroup := forms_checkGroup hR (henv.sign (givens.run s).1 poly.scheme.tvs) hpoly.body h
  have hopen := (formed_collecting hgroup (hgivens pending s hs).1).1
  exact formed_solve (henv.sign _ _) _ hopen

end

-- Expressions, by recursion on the tree

section

variable (hR : R.Builtin)
include hR

set_option linter.unusedSectionVars false in
mutual

theorem forms_infer {env : Env} (henv : env.Formed R) : ∀ e : Surface.Expr, FormsTyped R (infer env e)
  | .var n l => by
    unfold infer
    exact forms_inferVar henv n l
  | .con n l => by
    unfold infer
    exact forms_inferCon henv n l
  | .lit v l => by
    unfold infer
    exact forms_note rfl (Ty.formed_literal hR v)
  | .app f a l => by
    unfold infer
    refine .bind (forms_infer henv f) fun f' hf => .bind (forms_infer henv a) fun a' ha => ?_
    refine .bind (forms_zonk hf) fun t ht => ?_
    split
    · next p u hu =>
      obtain ⟨hp, hu⟩ := ht.of_splitFn? hu
      exact .bind (forms_unify hp ha _) fun _ _ => forms_note rfl hu
    · refine .bind forms_freshUvar fun u hu => ?_
      exact .bind (forms_unify (Ty.formed_fn hR ha hu) hf _) fun _ _ => forms_note rfl hu
  | .row e es l => by
    unfold infer
    exact forms_inferRow henv hR (forms_infer henv e) (forms_operands henv es)
  | .lambda ps e l => by
    unfold infer
    refine .bind forms_freshUvar fun t ht => ?_
    refine .bind (forms_checkGroup hR henv ht (List.forall_mem_singleton.2 fun env henv =>
      forms_infer henv e)) fun g hg => ?_
    exact forms_note rfl (Ty.formed_fns hR hg.args hg.res)
  | .letIn bs e l => by
    unfold infer
    refine .bind (forms_inferLocals hR henv (forming_jobs bs)) fun r hr => ?_
    exact .bind (forms_infer hr e) fun _ ht => forms_note rfl ht
  | .ifThenElse c y n l => by
    unfold infer
    refine .bind (forms_infer henv c) fun _ hc => .bind (forms_unify (show Ty.bool.Formed R from hR.bool) hc _) fun _ _ => ?_
    refine .bind (forms_infer henv y) fun _ hy => .bind (forms_infer henv n) fun _ hn => ?_
    exact .bind (forms_unify hy hn _) fun _ _ => forms_note rfl hy
  | .caseOf s as l => by
    unfold infer
    refine .bind (forms_infer henv s) fun _ hs => .bind forms_freshUvar fun t ht => ?_
    refine .bind (.mapM fun r hr => forms_checkRow hR henv (List.forall_mem_singleton.2 hs) ht
      (forming_altRows as r hr)) fun _ _ => ?_
    exact forms_note rfl ht
  | .list es l => by
    unfold infer
    refine .bind forms_freshUvar fun t ht => ?_
    exact .bind (forms_inferElems ht (forms_parts henv es)) fun _ _ =>
      forms_note rfl (Ty.formed_list hR ht)
  | .par e l => by
    unfold infer
    exact .bind (forms_infer henv e) fun _ ht => forms_note rfl ht

theorem forms_parts {env : Env} (henv : env.Formed R) :
    ∀ es : List Surface.Expr, ∀ p ∈ parts env es, FormsTyped R p.infer
  | [], p, hp => by
    unfold parts at hp
    cases hp
  | e :: es, p, hp => by
    unfold parts at hp
    rcases List.mem_cons.1 hp with rfl | hp
    · exact forms_infer henv e
    · exact forms_parts henv es p hp

theorem forms_operands {env : Env} (henv : env.Formed R) :
    ∀ es : List Surface.Operand, ∀ p ∈ operands env es, FormsTyped R p.2.infer
  | [], p, hp => by
    unfold operands at hp
    cases hp
  | .mk op e :: es, p, hp => by
    unfold operands at hp
    rcases List.mem_cons.1 hp with rfl | hp
    · exact forms_infer henv e
    · exact forms_operands henv es p hp

theorem forming_altRows : ∀ as : List Surface.Alt, ∀ r ∈ altRows as, r.Forming R
  | [], r, hr => by
    unfold altRows at hr
    cases hr
  | .mk p e l :: as, r, hr => by
    unfold altRows at hr
    rcases List.mem_cons.1 hr with rfl | hr
    · exact fun env henv => forms_infer henv e
    · exact forming_altRows as r hr

theorem forming_matchRow : ∀ m : Surface.Match, (matchRow m).Forming R
  | .mk ps e l => by
    unfold matchRow
    exact fun env henv => forms_infer henv e

theorem forming_matchRows : ∀ ms : List Surface.Match, ∀ r ∈ matchRows ms, r.Forming R
  | [], r, hr => by
    unfold matchRows at hr
    cases hr
  | m :: ms, r, hr => by
    unfold matchRows at hr
    rcases List.mem_cons.1 hr with rfl | hr
    · exact forming_matchRow m
    · exact forming_matchRows ms r hr

theorem forming_funJob : ∀ b : Surface.FunBind, (funJob b).Forming R
  | .mk n nl m ms l, r, hr => by
    unfold funJob at hr
    rcases List.mem_cons.1 hr with rfl | hr
    · exact forming_matchRow m
    · exact forming_matchRows ms r hr

theorem forming_job : ∀ b : Surface.Binding, (job b).Forming R
  | .fn b => by
    unfold job
    exact forming_funJob b
  | .pat (.mk p e l) => by
    unfold job
    exact fun env henv => forms_infer henv e

theorem forming_jobs : ∀ bs : List Surface.Binding, ∀ j ∈ jobs bs, j.2.Forming R
  | [], j, hj => by
    unfold jobs at hj
    cases hj
  | b :: bs, j, hj => by
    unfold jobs at hj
    rcases List.mem_cons.1 hj with rfl | hj
    · exact forming_job b
    · exact forming_jobs bs j hj

end

end

end Check

end TypeLens
