import TypeLens.Proofs.Checking.Coherence
import TypeLens.Proofs.Checking.Conservation
import TypeLens.Proofs.Checking.Substitution
import TypeLens.Proofs.Unification.Arities

/-!
All types that checking comes across have their arguments, whatever it reports, and the evidence for
a constraint is of the constraint's class and type.
-/

namespace TypeLens

variable {R : Arities}

structure Scheme.Formed (R : Arities) (s : Scheme) : Prop where
  body : s.body.Formed R
  preds : ∀ p ∈ s.preds, p.arg.Formed R

theorem Scheme.formed_mono {t : Ty} (ht : t.Formed R) : (Scheme.mono t).Formed R :=
  ⟨ht, fun _ h => absurd h List.not_mem_nil⟩

structure DataCon.Formed (R : Arities) (c : DataCon) : Prop where
  scheme : c.scheme.Formed R
  args : ∀ t ∈ c.argTypes, t.Formed R

/-- A type constructor can have the arguments that it is declared with. -/
def Entity.Formed (R : Arities) : Entity → Prop
  | .tyCon t => R t.name t.tyvars.length
  | .dataCon c => c.Formed R
  | .typeClass c => (∃ n, R c.name n) ∧ ∀ x ∈ c.methods, x.scheme.Formed R
  | .ident i => i.scheme.Formed R

structure Instance.Formed (R : Arities) (i : Instance) : Prop where
  wellFormed : i.WellFormed
  head : R i.head i.tyvars.length

theorem Instance.Formed.headTy {i : Instance} (h : i.Formed R) : i.headTy.Formed R := by
  refine Ty.formed_conApp.2 ⟨?_, List.forall_mem_map.2 fun _ _ => rfl⟩
  rw [List.length_map]
  exact h.head

theorem Instance.Formed.context {i : Instance} (h : i.Formed R) : ∀ p ∈ i.context, p.arg.Formed R := by
  intro p hp
  obtain ⟨v, -, hv⟩ := h.wellFormed.context p hp
  rw [hv]
  rfl

structure Globals.Formed (R : Arities) (g : Globals) : Prop where
  entities : ∀ p ∈ g.entities, p.2.Formed R
  instances : ∀ i ∈ g.instances, i.Formed R

theorem Globals.Formed.of_entity? {g : Globals} (hg : g.Formed R) {n : Name} {e : Entity}
    (h : g.entity? n = some e) : e.Formed R := hg.entities _ (Table.mem_of_get? h)

def Typed.Hole.pred : Hole → Pred
  | .unsolved _ p => p
  | .solved p _ => p

namespace Check

open Typed (DictVar Evidence Hole Ident)

/-- The types that a report shows have their arguments. -/
def Problem.Formed (R : Arities) : Problem → Prop
  | .mismatch t u => t.Formed R ∧ u.Formed R
  | .infiniteType _ t => t.Formed R
  | .instanceTwice _ t _ => t.Formed R
  | .noInstance p _ | .cannotDeduce p _ | .ambiguousType p _ => p.arg.Formed R
  | _ => True

theorem formed_of_resolve {g : Globals} {space : Namespace} {role : Role} {occ : String}
    {p : Problem} (h : resolve g space role occ = .error p) : p.Formed R := by
  unfold resolve at h
  split at h <;> cases h <;> trivial

theorem formed_of_resolveCon {g : Globals} {occ : String} {p : Problem}
    (h : resolveCon g occ = .error p) : p.Formed R := by
  unfold resolveCon at h
  cases hr : resolve g .value .dataConstructor occ with
  | error q =>
    rw [hr] at h
    cases h
    exact formed_of_resolve hr
  | ok n =>
    rw [hr] at h
    simp only [bind, Except.bind] at h
    split at h <;> cases h
    trivial

/-- Evidence for a constraint, as far as types are known: a dictionary for it, or an instance of its
class and type, with holes for the context of the instance. -/
inductive Fits (R : Arities) (σ : Subst) (p : Pred) : Evidence → Prop
  | byParam {d : DictVar} (h : σ.applyPred d.pred = σ.applyPred p) : Fits R σ p (.byParam d)
  | byInstance {i : Instance} {ts : List Ty} {hs : List Hole} (hi : i.Formed R)
      (hts : R i.head ts.length) (hcls : p.cls = i.cls)
      (harg : σ.apply p.arg = σ.apply (.conApp i.head ts))
      (hcontext : hs.map (fun h => σ.applyPred h.pred) =
        i.context.map fun q => σ.applyPred (q.substVars (assign i.tyvars ts))) :
      Fits R σ p (.byInstance i ts hs)

theorem Fits.mono {σ σ' : Subst} (h : σ.Grows σ') {p : Pred} {e : Evidence} (he : Fits R σ p e) :
    Fits R σ' p e := by
  have hpred {p q : Pred} (hpq : σ.applyPred p = σ.applyPred q) :
      σ'.applyPred p = σ'.applyPred q := by
    rw [← applyPred_applyPred h p, hpq, applyPred_applyPred h]
  cases he with
  | byParam hd => exact .byParam (hpred hd)
  | byInstance hi hts hcls harg hcontext =>
    refine .byInstance hi hts hcls ?_ ?_
    · rw [← h, harg, h]
    · have hmap := congrArg (List.map σ'.applyPred) hcontext
      simpa only [List.map_map, Function.comp_def, applyPred_applyPred h] using hmap

/-- The constraints that the holes made so far are for, by the numbers of the holes. -/
structure State.Registers (R : Arities) (pending : List Wanted) (s : State) (goals : List Pred) :
    Prop where
  length : goals.length = s.holes
  formed : ∀ p ∈ goals, p.arg.Formed R
  waiting : ∀ w ∈ pending ++ s.wanted, goals[w.hole]? = some w.pred
  noted : ∀ e ∈ s.inferred, ∀ v p, .unsolved v p ∈ e.1.dicts → goals[v]? = some p
  solved : ∀ x ∈ s.solutions, ∃ p, goals[x.1]? = some p ∧ Fits R s.subst p x.2
  args : ∀ x ∈ s.solutions, ∀ v p, .unsolved v p ∈ x.2.args → goals[v]? = some p

/-- What is known in a state has its arguments; `pending` are constraints that were put aside. -/
structure State.Formed (R : Arities) (pending : List Wanted) (s : State) : Prop where
  images : s.subst.Formed R
  reports : ∀ r ∈ s.reports, r.problem.Formed R
  goals : ∃ goals, s.Registers R pending goals

section

variable {pending pending' : List Wanted} {s s' : State}

theorem State.Formed.of_waiting (h : s.Formed R pending) {w : Wanted} (hw : w ∈ pending ++ s.wanted) :
    w.pred.arg.Formed R := by
  obtain ⟨goals, hgoals⟩ := h.goals
  exact hgoals.formed _ (List.mem_of_getElem? (hgoals.waiting w hw))

/-- What makes no holes and solves none. -/
theorem State.Formed.later (h : s.Formed R pending) (hgrows : s.subst.Grows s'.subst)
    (himages : s'.subst.Formed R) (hreports : ∀ r ∈ s'.reports, r ∈ s.reports ∨ r.problem.Formed R)
    (hholes : s'.holes = s.holes) (hsolutions : s'.solutions = s.solutions)
    (hwaiting : ∀ w ∈ pending' ++ s'.wanted, w ∈ pending ++ s.wanted)
    (hinferred : ∀ e ∈ s'.inferred, e ∈ s.inferred ∨ e.1.dicts = []) :
    s'.Formed R pending' := by
  obtain ⟨goals, hgoals⟩ := h.goals
  refine ⟨himages, fun r hr => (hreports r hr).elim (h.reports r) id, goals, ?_⟩
  refine ⟨hgoals.length.trans hholes.symm, hgoals.formed,
    fun w hw => hgoals.waiting w (hwaiting w hw), fun e he v p hd => ?_, ?_, ?_⟩
  · rcases hinferred e he with he | hnone
    · exact hgoals.noted e he v p hd
    · rw [hnone] at hd
      cases hd
  · intro x hx
    obtain ⟨p, hp, hfits⟩ := hgoals.solved x (hsolutions ▸ hx)
    exact ⟨p, hp, hfits.mono hgrows⟩
  · exact fun x hx => hgoals.args x (hsolutions ▸ hx)

/-- Of what waits, any part can be looked at. -/
theorem State.Formed.sub (h : s.Formed R pending) (hsub : pending' ⊆ pending ++ s.wanted) :
    s.Formed R pending' :=
  h.later (.refl _) h.images (fun _ hr => .inl hr) rfl rfl
    (fun _ hw => (List.mem_append.1 hw).elim (fun hw => hsub hw) (List.mem_append_right _))
    fun _ he => .inl he

theorem getElem?_append_of_range {goals new : List Pred} {ws : List Wanted}
    (hpreds : ws.map (·.pred) = new)
    (hholes : ws.map (·.hole) = List.range' goals.length new.length) :
    ∀ w ∈ ws, (goals ++ new)[w.hole]? = some w.pred := by
  intro w hw
  obtain ⟨i, hi, rfl⟩ := List.getElem_of_mem hw
  have hhole : ws[i].hole = goals.length + i := by
    have hget := congrArg (·[i]?) hholes
    have hlt : i < new.length := by rw [← hpreds, List.length_map]; exact hi
    simpa [hi, hlt] using hget
  rw [hhole, List.getElem?_append_right (Nat.le_add_right ..), Nat.add_sub_cancel_left, ← hpreds]
  simp [hi]

end

/-- An action after which what is known has its arguments, if it had them before. -/
def Forms (R : Arities) {α : Type} (act : CheckM α) (Q : α → Prop) : Prop :=
  ∀ pending s, s.Formed R pending → (act.run s).2.Formed R pending ∧ Q (act.run s).1

namespace Forms

variable {α β : Type} {act : CheckM α} {P Q : α → Prop} {S : β → Prop}

theorem pure {a : α} (h : Q a) : Forms R (Pure.pure a) Q := fun _ _ hs => ⟨hs, h⟩

theorem bind {f : α → CheckM β} (h : Forms R act P) (hf : ∀ a, P a → Forms R (f a) S) :
    Forms R (act >>= f) S := fun pending s hs =>
  have ⟨hs', ha⟩ := h pending s hs
  hf _ ha pending _ hs'

theorem mono (h : Forms R act P) (hQ : ∀ a, P a → Q a) : Forms R act Q :=
  fun pending s hs => (h pending s hs).imp_right (hQ _)

/-- What an action returns in any case. -/
theorem returning (h : Forms R act fun _ => True) (hQ : Returns act Q) : Forms R act Q :=
  fun pending s hs => ⟨(h pending s hs).1, hQ s⟩

theorem mapM {f : α → CheckM β} {xs : List α} (h : ∀ x ∈ xs, Forms R (f x) S) :
    Forms R (xs.mapM f) fun bs => ∀ b ∈ bs, S b := by
  induction xs with
  | nil => exact .pure fun _ h => absurd h List.not_mem_nil
  | cons x xs ih =>
    rw [List.mapM_cons]
    refine .bind (h x (List.mem_cons_self ..)) fun b hb => ?_
    exact .bind (ih fun y hy => h y (List.mem_cons_of_mem _ hy)) fun bs hbs =>
      .pure (List.forall_mem_cons.2 ⟨hb, hbs⟩)

theorem forM {f : α → CheckM PUnit} {xs : List α} (h : ∀ x ∈ xs, Forms R (f x) fun _ => True) :
    Forms R (xs.forM f) fun _ => True := by
  induction xs with
  | nil => exact .pure trivial
  | cons x xs ih =>
    exact .bind (h x (List.mem_cons_self ..)) fun _ _ =>
      ih fun y hy => h y (List.mem_cons_of_mem _ hy)

/-- The same for actions that also know what patterns have bound. -/
theorem bindPat {act : PatM α} {f : α → PatM β} {b : Bound} {P : α × Bound → Prop}
    {S : β × Bound → Prop} (h : Forms R (act.run b) P)
    (hf : ∀ r, P r → Forms R ((f r.1).run r.2) S) : Forms R ((act >>= f).run b) S := by
  rw [StateT.run_bind]
  exact h.bind hf

theorem lift {b : Bound} (h : Forms R act Q) :
    Forms R ((liftM act : PatM α).run b) fun r => Q r.1 ∧ r.2 = b :=
  bind (f := fun a => Pure.pure (a, b)) h fun _ ha => .pure ⟨ha, rfl⟩

/-- An action that has nothing to do with types. -/
theorem of_same (h : ∀ s, (act.run s).2.subst = s.subst ∧ (act.run s).2.reports = s.reports ∧
    (act.run s).2.holes = s.holes ∧ (act.run s).2.solutions = s.solutions ∧
    (act.run s).2.wanted = s.wanted ∧ (act.run s).2.inferred = s.inferred) :
    Forms R act fun _ => True := by
  intro pending s hs
  obtain ⟨hsubst, hreports, hholes, hsolutions, hwanted, hinferred⟩ := h s
  refine ⟨hs.later (hsubst ▸ .refl _) (hsubst ▸ hs.images) (fun r hr => .inl (hreports ▸ hr)) hholes
    hsolutions ?_ fun e he => .inl (hinferred ▸ he), trivial⟩
  rw [hwanted]
  exact fun _ hw => hw

end Forms

-- Single actions

theorem forms_report {p : Problem} (hp : p.Formed R) (loc : Span) :
    Forms R (report p loc) fun _ => True := by
  refine fun pending s hs => ⟨hs.later (.refl _) hs.images (fun r hr => ?_) rfl rfl (fun _ hw => hw)
    fun _ he => .inl he, trivial⟩
  rcases List.mem_cons.1 hr with rfl | hr
  · exact .inr hp
  · exact .inl hr

theorem forms_reportIf (c : Bool) {p : Problem} (hp : p.Formed R) (loc : Span) :
    Forms R (reportIf c p loc) fun _ => True := by
  unfold reportIf
  split
  · exact forms_report hp loc
  · exact .pure trivial

theorem forms_freshUnique : Forms R freshUnique fun _ => True :=
  .of_same fun _ => ⟨rfl, rfl, rfl, rfl, rfl, rfl⟩

theorem forms_freshUvar : Forms R freshUvar (Ty.Formed R) :=
  Forms.returning (.of_same fun _ => ⟨rfl, rfl, rfl, rfl, rfl, rfl⟩) fun _ => rfl

theorem forms_freshFor {α : Type} (xs : List α) :
    Forms R (freshFor xs) fun ts => ∀ t ∈ ts, t.Formed R := by
  induction xs with
  | nil => exact .pure fun _ h => absurd h List.not_mem_nil
  | cons x xs ih =>
    exact .bind forms_freshUvar fun t ht => .bind ih fun ts hts =>
      .pure (List.forall_mem_cons.2 ⟨ht, hts⟩)

theorem forms_localName (env : Env) (occ : String) : Forms R (localName env occ) fun _ => True :=
  .bind forms_freshUnique fun _ _ => .pure trivial

theorem forms_newLocal (env : Env) (occ : String) {t : Ty} (ht : t.Formed R) :
    Forms R (newLocal env occ t) fun i => i.scheme.Formed R :=
  .bind (forms_localName env occ) fun _ _ => .pure (Scheme.formed_mono ht)

theorem forms_zonk {t : Ty} (ht : t.Formed R) : Forms R (zonk t) (Ty.Formed R) := by
  intro pending s hs
  refine ⟨hs.later (s.subst.grows_zonk t) (hs.images.congr (s.subst.image?_zonk t))
    (fun _ hr => .inl hr) rfl rfl (fun _ hw => hw) fun _ he => .inl he, ?_⟩
  rw [zonk_run_fst]
  exact hs.images.apply ht

theorem forms_unify {t u : Ty} (ht : t.Formed R) (hu : u.Formed R) (loc : Span) :
    Forms R (unify t u loc) fun _ => True := by
  intro pending s hs
  obtain ⟨himages, hmismatch⟩ := hs.images.unify ht hu
  have hunified : State.Formed R pending { s with subst := (s.subst.unify t u).1 } :=
    hs.later (s.subst.grows_unify t u) himages (fun _ hr => .inl hr) rfl rfl (fun _ hw => hw)
      fun _ he => .inl he
  cases h : (s.subst.unify t u).2 with
  | none =>
    rw [unify_run_of_none loc h]
    exact ⟨hunified, trivial⟩
  | some e =>
    rw [h] at hmismatch
    simp only [unify, StateT.run_bind, StateT.run_get, StateT.run_modify, pure_bind, h]
    cases e with
    | clash =>
      have hreport : Forms R (do report (.mismatch (← zonk t) (← zonk u)) loc) fun _ => True :=
        .bind (forms_zonk ht) fun t' ht' => .bind (forms_zonk hu) fun u' hu' =>
          forms_report (p := .mismatch t' u') ⟨ht', hu'⟩ loc
      exact hreport pending _ hunified
    | infinite m v => exact forms_report (p := .infiniteType m v) hmismatch loc pending _ hunified

theorem forms_note {e : Inferred} (he : e.1.dicts = []) (ht : e.2.Formed R) :
    Forms R (note e) fun r => r.2.Formed R := by
  refine fun pending s hs => ⟨hs.later (.refl _) hs.images (fun _ hr => .inl hr) rfl rfl
    (fun _ hw => hw) fun e' he' => ?_, ht⟩
  rcases List.mem_cons.1 he' with rfl | he'
  · exact .inr he
  · exact .inl he'

/-- An occurrence makes holes for the constraints of a name. -/
theorem forms_occurrence {h : Typed.Head} (hh : h.scheme.Formed R) (occ : String) (loc : Span) :
    Forms R (occurrence h occ loc) fun r => r.2.Formed R := by
  unfold occurrence
  dsimp only
  split
  · exact .bind (forms_note rfl hh.body) fun _ hr => .pure hr
  refine .bind (forms_freshFor _) fun ts hts => ?_
  have hbody : (h.scheme.body.substVars (assign h.scheme.tvs ts)).Formed R := hh.body.at _ hts
  intro pending s hs
  let preds := h.scheme.preds.map (·.substVars (assign h.scheme.tvs ts))
  obtain ⟨ws, hrun, hpreds, hholes, -⟩ := run_wantedFor loc occ preds s
  let e : Inferred := (.inst h ts (ws.map fun g => .unsolved g.hole g.pred) loc,
    h.scheme.body.substVars (assign h.scheme.tvs ts))
  let s' : State := { s with
    holes := s.holes + preds.length, wanted := s.wanted ++ ws, inferred := e :: s.inferred }
  rw [StateT.run_bind, hrun]
  refine ⟨?_, hbody⟩
  change s'.Formed R pending
  obtain ⟨goals, hgoals⟩ := hs.goals
  have hold {v : Nat} {p : Pred} (hv : goals[v]? = some p) : (goals ++ preds)[v]? = some p := by
    rw [List.getElem?_append_left (List.getElem?_eq_some_iff.1 hv).1, hv]
  rw [← hgoals.length] at hholes
  have hnew := getElem?_append_of_range hpreds hholes
  refine ⟨hs.images, hs.reports, goals ++ preds, ?_, ?_, ?_, ?_, ?_, ?_⟩
  · rw [List.length_append, hgoals.length]
  · refine List.forall_mem_append.2 ⟨hgoals.formed, List.forall_mem_map.2 fun p hp => ?_⟩
    exact (hh.preds p hp).at _ hts
  · intro w hw
    rw [← List.append_assoc] at hw
    exact (List.mem_append.1 hw).elim (fun hw => hold (hgoals.waiting w hw)) (hnew w)
  · refine List.forall_mem_cons.2 ⟨fun v p hd => ?_, fun e he v p hd => hold (hgoals.noted e he v p hd)⟩
    obtain ⟨w, hw, heq⟩ := List.mem_map.1 hd
    obtain ⟨rfl, rfl⟩ := Hole.unsolved.inj heq
    exact hnew w hw
  · intro x hx
    obtain ⟨p, hp, hfits⟩ := hgoals.solved x hx
    exact ⟨p, hold hp, hfits⟩
  · exact fun x hx v p hd => hold (hgoals.args x hx v p hd)

-- Solving

/-- The surroundings of what is checked. -/
structure Env.Formed (R : Arities) (env : Env) : Prop where
  globals : env.globals.Formed R
  locals : ∀ i ∈ env.locals, i.2.scheme.Formed R

namespace Env.Formed

variable {env : Env}

theorem reducing (h : env.Formed R) : env.Reducing := fun i hi => (h.globals.instances i hi).wellFormed

theorem extend (h : env.Formed R) {ids : Locals} (hids : ∀ i ∈ ids, i.2.scheme.Formed R) :
    (env.extend ids).Formed R := ⟨h.globals, List.forall_mem_append.2 ⟨hids, h.locals⟩⟩

theorem sign (h : env.Formed R) (givens : List DictVar) (tvs : List String) :
    Env.Formed R { env with givens := env.givens ++ givens, rigid := env.rigid ++ tvs } :=
  ⟨h.globals, h.locals⟩

end Env.Formed

variable {env : Env} {sc : Scoping} {pending : List Wanted}

/-- The evidence that is found for a constraint is of its class and type. -/
theorem Finds.fits (henv : env.Formed R) {s : State} {params : Table (Name × UVar) DictVar}
    {w : Wanted} {goals : List Wanted} {e : Evidence}
    (h : Finds params (s.subst.applyPred w.pred) goals (env.fate sc s.subst (w.goal s.subst)) (some e))
    (hparams : ∀ p ∈ params, p.2.pred = ⟨p.1.1, .uvar p.1.2⟩)
    (hformed : (s.subst.apply w.pred.arg).Formed R) : Fits R s.subst w.pred e := by
  generalize hf : env.fate sc s.subst (w.goal s.subst) = fate at h
  cases h with
  | @reduced x goals hpreds =>
    obtain ⟨⟨head, harg, hi⟩, hcontext⟩ :=
      InstanceEnv.match?_eq_some (match?_of_fate_eq_reduced hf)
    rw [Globals.instanceEnv, InstanceEnv.find?_ofList] at hi
    obtain ⟨hi, hkey⟩ := of_firstInstance? hi
    obtain ⟨hcls, hhead⟩ := Prod.mk.inj hkey
    have hconApp : s.subst.apply w.pred.arg = .conApp x.inst.head x.typeArgs := by
      rw [hhead]
      exact Ty.eq_conApp_of_unconApp? harg
    rw [hconApp, Ty.formed_conApp] at hformed
    refine .byInstance (henv.globals.instances _ hi) hformed.1 hcls.symm ?_ ?_
    · rw [← hconApp, Subst.apply_apply]
    · have hmap := congrArg (List.map s.subst.applyPred) (hpreds.trans hcontext)
      simpa only [List.map_map, Function.comp_def, Hole.pred] using hmap
  | given =>
    obtain ⟨-, heq⟩ := fate_eq_given hf
    exact .byParam heq
  | parameter hd =>
    obtain ⟨-, harg⟩ := fate_eq_parameter hf
    have hpred := (hparams _ hd).trans (congrArg (Pred.mk _) harg.symm)
    refine .byParam ?_
    rw [hpred]
    exact applyPred_applyPred (.refl s.subst) w.pred

theorem Finds.preds_formed (henv : env.Formed R) {s : State}
    {params : Table (Name × UVar) DictVar} {w : Wanted} {goals : List Wanted} {e : Option Evidence}
    (h : Finds params (s.subst.applyPred w.pred) goals (env.fate sc s.subst (w.goal s.subst)) e)
    (hformed : (s.subst.apply w.pred.arg).Formed R) : ∀ g ∈ goals, g.pred.arg.Formed R := by
  generalize hf : env.fate sc s.subst (w.goal s.subst) = fate at h
  cases h with
  | @reduced x goals hpreds =>
    obtain ⟨⟨head, harg⟩, hi, hcontext⟩ := InstanceEnv.of_match? (match?_of_fate_eq_reduced hf)
    have harg : s.subst.apply w.pred.arg = .conApp head x.typeArgs := Ty.eq_conApp_of_unconApp? harg
    rw [harg, Ty.formed_conApp] at hformed
    intro g hg
    have hmem : g.pred ∈ x.context := hpreds ▸ List.mem_map_of_mem hg
    rw [hcontext] at hmem
    obtain ⟨q, hq, heq⟩ := List.mem_map.1 hmem
    rw [← heq]
    exact ((henv.globals.instances _ hi).context q hq).at _ hformed.2
  | _ => exact fun _ h => absurd h List.not_mem_nil

/-- One constraint is solved, and those that it is reduced to wait. -/
theorem formed_solveOne (henv : env.Formed R) {s : State} {w : Wanted} {acc : Solved}
    (hacc : ∀ p ∈ acc.params, p.2.pred = ⟨p.1.1, .uvar p.1.2⟩) (h : s.Formed R pending)
    (hw : w ∈ pending) :
    ((solveOne env sc acc w).run s).2.Formed R (pending ++ ((solveOne env sc acc w).run s).1.2) := by
  obtain ⟨-, hwanted, new, hreports, hnew, -, -⟩ := @adds_solveOne env sc s.subst acc w s rfl
  have hstep := @step_solveOne env sc s.subst s rfl acc w
  have himage := hstep.image?
  have hholes := hstep.holes
  have hnumbers := hstep.goals
  have hparams := hstep.typed hacc
  obtain ⟨e, hfinds, hsolutions⟩ := hstep.solutions
  have hinferred := (quiet_solveOne env sc acc w).inferred_subset s
  generalize (solveOne env sc acc w).run s = r at *
  obtain ⟨⟨acc', ws⟩, s'⟩ := r
  dsimp only at *
  have hformed : (s.subst.apply w.pred.arg).Formed R :=
    h.images.apply (h.of_waiting (List.mem_append_left _ hw))
  have hpreds := hfinds.preds_formed henv hformed
  have hgrows : s.subst.Grows s'.subst := fun t => by
    rw [Subst.apply_eq, Subst.apply_eq s'.subst, himage]
    exact s.subst.apply_apply t
  obtain ⟨goals, hgoals⟩ := h.goals
  let preds := ws.map (·.pred)
  have hlength : ws.length = preds.length := (List.length_map _).symm
  rw [hlength, ← hgoals.length] at hnumbers
  have hold {v : Nat} {p : Pred} (hv : goals[v]? = some p) : (goals ++ preds)[v]? = some p := by
    rw [List.getElem?_append_left (List.getElem?_eq_some_iff.1 hv).1, hv]
  have hfresh := getElem?_append_of_range rfl hnumbers
  refine ⟨h.images.congr himage, fun r hr => ?_, goals ++ preds, ?_, ?_, ?_, ?_, ?_, ?_⟩
  · rw [hreports, hnew] at hr
    rcases List.mem_append.1 hr with hr | hr
    · have hr := Option.mem_toList.1 hr
      unfold Env.report? at hr
      generalize env.fate sc s.subst (w.goal s.subst) = fate at hr
      cases fate with
      | reduced | given | parameter | deferred => cases hr
      | noInstance | cannotDeduce | ambiguous =>
        cases hr
        exact hformed
    · exact h.reports r hr
  · rw [List.length_append, hgoals.length, hholes, hlength]
  · exact List.forall_mem_append.2 ⟨hgoals.formed, List.forall_mem_map.2 hpreds⟩
  · intro x hx
    rw [hwanted] at hx
    simp only [List.mem_append] at hx
    rcases hx with (hx | hx) | hx
    · exact hold (hgoals.waiting x (List.mem_append_left _ hx))
    · exact hfresh x hx
    · exact hold (hgoals.waiting x (List.mem_append_right _ hx))
  · exact fun e he v p hd => hold (hgoals.noted e (hinferred he) v p hd)
  · intro x hx
    rw [hsolutions] at hx
    rcases List.mem_append.1 hx with hx | hx
    · obtain ⟨ev, hev, rfl⟩ := Option.map_eq_some_iff.1 (Option.mem_toList.1 hx)
      subst hev
      refine ⟨w.pred, hold (hgoals.waiting w (List.mem_append_left _ hw)), ?_⟩
      exact (hfinds.fits henv hparams hformed).mono hgrows
    · obtain ⟨p, hp, hfits⟩ := hgoals.solved x hx
      exact ⟨p, hold hp, hfits.mono hgrows⟩
  · intro x hx v p hd
    rw [hsolutions] at hx
    rcases List.mem_append.1 hx with hx | hx
    · obtain ⟨ev, hev, rfl⟩ := Option.map_eq_some_iff.1 (Option.mem_toList.1 hx)
      subst hev
      generalize env.fate sc s.subst (w.goal s.subst) = fate at hfinds
      cases hfinds with
      | reduced =>
        obtain ⟨g, hg, heq⟩ := List.mem_map.1 hd
        obtain ⟨rfl, rfl⟩ := Hole.unsolved.inj heq
        exact hfresh g hg
      | given | parameter => cases hd
    · exact hold (hgoals.args x hx v p hd)

/-- What is deferred was there before. -/
theorem Drains.formed (henv : env.Formed R) {acc : Solved} {ws : List Wanted} {s : State}
    {x : Solved × State} (hx : Drains env sc acc ws s x) (h : s.Formed R pending)
    (hws : ws ⊆ pending) (hdeferred : acc.deferred ⊆ pending)
    (hacc : ∀ p ∈ acc.params, p.2.pred = ⟨p.1.1, .uvar p.1.2⟩) :
    ∃ more, x.2.Formed R (pending ++ more) ∧ x.1.deferred ⊆ pending ++ more := by
  induction hx generalizing pending with
  | done => exact ⟨[], by rwa [List.append_nil], by rwa [List.append_nil]⟩
  | @next acc w ws s x _ ih =>
    obtain ⟨hw, hws⟩ := List.cons_subset.1 hws
    obtain ⟨-, -, -, -, -, hdefers, -⟩ := @adds_solveOne env sc s.subst acc w s rfl
    have hstep : State.Formed R (pending ++ ((solveOne env sc acc w).run s).1.2)
        ((solveOne env sc acc w).run s).2 := formed_solveOne henv hacc h hw
    have hparams := (@step_solveOne env sc s.subst s rfl acc w).typed hacc
    have hdeferred' : ((solveOne env sc acc w).run s).1.1.deferred ⊆
        pending ++ ((solveOne env sc acc w).run s).1.2 := by
      intro q hq
      rw [hdefers, List.mem_append] at hq
      refine List.mem_append_left _ (hq.elim (fun hq => hdeferred hq) fun hq => ?_)
      split at hq
      · exact List.mem_singleton.1 hq ▸ hw
      · cases hq
    obtain ⟨more, hformed, hsub⟩ := ih hstep
      (List.append_subset.2 ⟨List.subset_append_of_subset_left _ hws, List.subset_append_right _ _⟩)
      hdeferred' hparams
    rw [List.append_assoc] at hformed hsub
    exact ⟨_, hformed, hsub⟩

theorem formed_solve (henv : env.Formed R) (sc : Scoping) {ws : List Wanted} {s : State}
    (h : s.Formed R (pending ++ ws)) : ((solve env sc ws).run s).2.Formed R pending := by
  let bound := roundBound (ws.map fun w => { w with pred := s.subst.applyPred w.pred })
  let x := (solveRounds env sc bound {} ws).run s
  have hx : Drains env sc {} ws s x :=
    drains_solveRounds henv.reducing bound rfl {} ws fun _ => within_roundBound
  obtain ⟨more, hformed, hsub⟩ := hx.formed henv h (List.subset_append_right _ _)
    (List.nil_subset _) fun _ h => absurd h List.not_mem_nil
  refine hformed.later (.refl _) hformed.images (fun _ hr => .inl hr) rfl rfl (fun w hw => ?_)
    fun _ he => .inl he
  have hw : w ∈ pending ++ (x.2.wanted ++ x.1.deferred) := hw
  simp only [List.mem_append] at hw ⊢
  rcases hw with hw | hw | hw
  · exact .inl (.inl (.inl hw))
  · exact .inr hw
  · exact .inl (by simpa only [List.mem_append] using hsub hw)

/-- What an action raises is put aside. -/
theorem formed_collecting {α : Type} {act : CheckM α} {Q : α → Prop} (hact : Forms R act Q)
    {s : State} (h : s.Formed R pending) :
    ((collecting act).run s).2.Formed R (pending ++ ((collecting act).run s).1.2) ∧
      Q ((collecting act).run s).1.1 := by
  let s₁ : State := { s with wanted := [] }
  have hbefore : s₁.Formed R (pending ++ s.wanted) := by
    refine h.later (.refl _) h.images (fun _ hr => .inl hr) rfl rfl (fun w hw => ?_) fun _ he => .inl he
    exact List.append_nil (pending ++ s.wanted) ▸ hw
  obtain ⟨hafter, hQ⟩ := hact _ _ hbefore
  refine ⟨hafter.later (.refl _) hafter.images (fun _ hr => .inl hr) rfl rfl (fun w hw => ?_)
    fun _ he => .inl he, hQ⟩
  have hw : w ∈ pending ++ (act.run s₁).2.wanted ++ s.wanted := hw
  simp only [List.mem_append] at hw ⊢
  tauto

end Check

end TypeLens
