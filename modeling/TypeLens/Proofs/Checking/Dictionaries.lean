import Mathlib.Data.List.Induction
import TypeLens.Proofs.Checking.Conservation
import TypeLens.Proofs.Typed.Reading

/-!
The dictionaries in the evidence for a hole. Wherever a constraint is solved, the dictionaries that
its evidence refers to are among those that are around there.
-/

namespace TypeLens

namespace Typed

/-- The instance or the dictionary that evidence begins with. -/
def Evidence.head : Evidence → Name
  | .byInstance i _ _ => i.name
  | .byParam d => d.name

/-- Solutions lead from a hole to a name in the evidence for it. -/
inductive Leads (sols : List (Nat × Evidence)) : Nat → Name → Prop
  | here {v : Nat} {e : Evidence} (h : (v, e) ∈ sols) : Leads sols v e.head
  | through {v u : Nat} {e : Evidence} {q : Pred} {x : Name} (h : (v, e) ∈ sols)
      (hu : .unsolved u q ∈ e.args) (hx : Leads sols u x) : Leads sols v x

theorem Leads.mono {sols sols' : List (Nat × Evidence)} (h : sols ⊆ sols') {v : Nat} {x : Name}
    (hx : Leads sols v x) : Leads sols' v x := by
  induction hx with
  | here hmem => exact .here (h hmem)
  | through hmem hu _ ih => exact .through (h hmem) hu ih

theorem leads_iff {sols : List (Nat × Evidence)} {v : Nat} {x : Name} : Leads sols v x ↔
    ∃ e, (v, e) ∈ sols ∧ (x = e.head ∨ ∃ u q, .unsolved u q ∈ e.args ∧ Leads sols u x) := by
  constructor
  · rintro (⟨h⟩ | ⟨h, hu, hx⟩)
    · exact ⟨_, h, .inl rfl⟩
    · exact ⟨_, h, .inr ⟨_, _, hu, hx⟩⟩
  · rintro ⟨e, h, rfl | ⟨u, q, hu, hx⟩⟩
    · exact .here h
    · exact .through h hu hx

/-- Solutions lead to all names in the evidence that they amount to. -/
theorem leads_of_get? {σ : Subst} {sols : List (Nat × Evidence)}
    (hargs : ∀ p ∈ sols, ∀ d ∈ p.2.args, ∃ u q, d = .unsolved u q) {v : Nat} {e : Evidence}
    (he : (Answers.ofSolutions σ sols).evidence.get? v = some e) {x : Name} (hx : x ∈ e.names) :
    Leads sols v x := by
  induction sols using List.reverseRecOn generalizing v e x with
  | nil => cases he
  | append_singleton later p ih =>
    have ih {v : Nat} {e : Evidence} (he : (Answers.ofSolutions σ later).evidence.get? v = some e)
        {x : Name} (hx : x ∈ e.names) : Leads (later ++ [p]) v x :=
      (ih (fun p hp => hargs p (List.mem_append_left _ hp)) he hx).mono
        (List.subset_append_left ..)
    obtain ⟨u, e'⟩ := p
    rw [ofSolutions_concat, Table.get?] at he
    split at he
    swap
    · exact ih he hx
    next heq =>
    subst heq
    cases he
    have hmem : (u, e') ∈ later ++ [(u, e')] := List.mem_append_right _ (List.mem_singleton_self _)
    cases e' with
    | byParam d =>
      rw [Answers.evidenceOf, Evidence.names, List.mem_singleton] at hx
      exact hx ▸ .here hmem
    | byInstance i ts hs =>
      rw [Answers.evidenceOf, Evidence.names, List.mem_cons, mem_namesOf_holes] at hx
      rcases hx with rfl | ⟨h, hh, hx⟩
      · exact .here hmem
      · obtain ⟨d, hd, rfl⟩ := List.mem_map.1 hh
        obtain ⟨w, q, rfl⟩ := hargs _ hmem d hd
        rw [Answers.hole] at hx
        split at hx
        · next e he => exact .through hmem hd (ih he hx)
        · cases hx

end Typed

namespace Check

open Typed (Answers DictVar Evidence Hole Leads)

/-- A state in which nothing has gone wrong, with at most one solution for a hole. -/
structure State.Final (E : State) : Prop where
  accepted : ∀ r ∈ E.reports, r.isError = false
  nodup : (E.solutions.map Prod.fst).Nodup
  args : ∀ p ∈ E.solutions, ∀ d ∈ p.2.args, ∃ u q, d = .unsolved u q

/-- The dictionaries that constraints are solved with in the end are in `A`, apart from those of
instances. -/
def Around (E : State) (A : List Name) (ws : List Wanted) : Prop :=
  ∀ w ∈ ws, ∀ x, Leads E.solutions w.hole x → x.IsLocal → x ∈ A

theorem Around.subset {E : State} {A : List Name} {ws ws' : List Wanted} (h : Around E A ws)
    (hws : ws' ⊆ ws) : Around E A ws' := fun w hw => h w (hws hw)

/-- Checking goes on from `s` and ends in `E`. Constraints that wait in `s` are solved with the
dictionaries `A` only; those that are reported by then are never solved. -/
structure Ends (E : State) (A : List Name) (pending : List Wanted) (s : State) : Prop where
  final : E.Final
  reports : s.reports ⊆ E.reports
  solutions : ∃ later, E.solutions = later ++ s.solutions ∧
    ∀ v ∈ later.map Prod.fst, s.holes ≤ v ∨ ∃ w ∈ pending ++ s.wanted, w.hole = v
  waiting : Around E A (pending ++ s.wanted)

variable {E : State} {A A' : List Name} {pending pending' : List Wanted} {s s' : State}

theorem Balanced.final (h : Balanced pending E) (haccepted : ∀ r ∈ E.reports, r.isError = false) :
    E.Final where
  accepted := haccepted
  nodup := by
    obtain ⟨opened, hperm, -⟩ := h.holes
    have hnodup := hperm.nodup_iff.2 List.nodup_range
    rw [List.append_assoc] at hnodup
    exact (List.nodup_append.1 hnodup).1
  args p hp d hd := by
    obtain ⟨v, q, rfl, -⟩ := h.args p hp d hd
    exact ⟨v, q, rfl⟩

namespace Ends

theorem mono (h : Ends E A pending s) (hA : A ⊆ A') : Ends E A' pending s :=
  { h with waiting := fun w hw x hx hl => hA (h.waiting w hw x hx hl) }

/-- What solves no constraints. -/
theorem of_later (h : Ends E A' pending' s') (hreports : s.reports ⊆ s'.reports)
    (hholes : s.holes ≤ s'.holes) (hsolutions : s'.solutions = s.solutions)
    (hnew : ∀ w ∈ pending' ++ s'.wanted, w ∈ pending ++ s.wanted ∨ s.holes ≤ w.hole)
    (hwaiting : Around E A (pending ++ s.wanted)) : Ends E A pending s where
  final := h.final
  reports _ hr := h.reports (hreports hr)
  waiting := hwaiting
  solutions := by
    obtain ⟨later, heq, hkeys⟩ := h.solutions
    refine ⟨later, hsolutions ▸ heq, fun v hv => ?_⟩
    rcases hkeys v hv with hv | ⟨w, hw, rfl⟩
    · exact .inl (Nat.le_trans hholes hv)
    · exact (hnew w hw).symm.imp_right fun hw => ⟨w, hw, rfl⟩

/-- Constraints that wait go on to do so. -/
theorem around (h : Ends E A pending s') (hs : s.wanted ⊆ s'.wanted) :
    Around E A (pending ++ s.wanted) :=
  h.waiting.subset (List.append_subset.2 ⟨List.subset_append_left ..,
    List.subset_append_of_subset_right _ hs⟩)

end Ends

/-- However checking ends after an action, it ends there when it goes on before it, and what the
action returns satisfies `Q`. All holes are accounted for. -/
structure Scopes (E : State) (A : List Name) {α : Type} (act : CheckM α) (Q : α → Prop) : Prop where
  conserves : Conserves act
  ends : ∀ pending s, Balanced pending s → Ends E A pending (act.run s).2 →
    Ends E A pending s ∧ Q (act.run s).1

namespace Scopes

variable {α β : Type} {act : CheckM α} {P : α → Prop} {Q : β → Prop}

theorem pure {a : α} (h : P a) : Scopes E A (Pure.pure a) P :=
  ⟨.pure a, fun _ _ _ hs => ⟨hs, h⟩⟩

theorem mono {R : α → Prop} (h : Scopes E A act P) (hR : ∀ a, P a → R a) : Scopes E A act R :=
  ⟨h.conserves, fun pending s hb hs => (h.ends pending s hb hs).imp_right (hR _)⟩

/-- What an action returns in any case. -/
theorem returning (h : Scopes E A act fun _ => True) (hP : Returns act P) : Scopes E A act P :=
  ⟨h.conserves, fun pending s hb hs => ⟨(h.ends pending s hb hs).1, hP s⟩⟩

theorem bind_of {S : α → Prop} {f : α → CheckM β} (h : Scopes E A act P) (hS : Returns act S)
    (hf : ∀ a, S a → Scopes E A (f a) fun b => P a → Q b) : Scopes E A (act >>= f) Q := by
  refine ⟨.bind_of h.conserves hS fun a ha => (hf a ha).conserves, fun pending s hb hs => ?_⟩
  have hb' := h.conserves pending s hb
  obtain ⟨hs', hQ⟩ := (hf (act.run s).1 (hS s)).ends pending (act.run s).2 hb' hs
  obtain ⟨hs, hP⟩ := h.ends pending s hb hs'
  exact ⟨hs, hQ hP⟩

theorem bind {f : α → CheckM β} (h : Scopes E A act P)
    (hf : ∀ a, Scopes E A (f a) fun b => P a → Q b) : Scopes E A (act >>= f) Q :=
  bind_of (S := fun _ => True) h (fun _ => trivial) fun a _ => hf a

theorem skip {f : α → CheckM β} (h : Scopes E A act fun _ => True)
    (hf : ∀ a, Scopes E A (f a) Q) : Scopes E A (act >>= f) Q :=
  bind h fun a => (hf a).mono fun _ hb _ => hb

/-- What is returned belongs to what an action was run on, and the other way round. -/
theorem mapM {f : α → CheckM β} {as : List α} {R : α → β → Prop}
    (h : ∀ a ∈ as, Scopes E A (f a) (R a)) : Scopes E A (as.mapM f) fun bs =>
      (∀ b ∈ bs, ∃ a ∈ as, R a b) ∧ ∀ a ∈ as, ∃ b ∈ bs, R a b := by
  induction as with
  | nil => exact .pure (by simp)
  | cons a as ih =>
    rw [List.mapM_cons]
    refine .bind (h a (List.mem_cons_self ..)) fun b => ?_
    refine .bind (ih fun a' ha' => h a' (List.mem_cons_of_mem _ ha')) fun bs => ?_
    refine .pure fun hbs hb => ?_
    constructor
    · refine List.forall_mem_cons.2 ⟨⟨a, List.mem_cons_self .., hb⟩, fun b' hb' => ?_⟩
      obtain ⟨a', ha', h⟩ := hbs.1 b' hb'
      exact ⟨a', List.mem_cons_of_mem _ ha', h⟩
    · refine List.forall_mem_cons.2 ⟨⟨b, List.mem_cons_self .., hb⟩, fun a' ha' => ?_⟩
      obtain ⟨b', hb', h⟩ := hbs.2 a' ha'
      exact ⟨b', List.mem_cons_of_mem _ hb', h⟩

theorem forM {f : α → CheckM PUnit} {as : List α}
    (h : ∀ a ∈ as, Scopes E A (f a) fun _ => True) : Scopes E A (as.forM f) fun _ => True := by
  induction as with
  | nil => exact .pure trivial
  | cons a as ih =>
    exact .skip (h a (List.mem_cons_self ..)) fun _ =>
      ih fun a' ha' => h a' (List.mem_cons_of_mem _ ha')

/-- An action that makes no holes and neither raises nor solves constraints. -/
theorem of_same (hact : Conserves act) (h : ∀ s, s.reports ⊆ (act.run s).2.reports ∧
    (act.run s).2.holes = s.holes ∧ (act.run s).2.wanted = s.wanted ∧
    (act.run s).2.solutions = s.solutions) : Scopes E A act fun _ => True := by
  refine ⟨hact, fun pending s _ hs => ⟨?_, trivial⟩⟩
  obtain ⟨hreports, hholes, hwanted, hsolutions⟩ := h s
  refine hs.of_later hreports (Nat.le_of_eq hholes.symm) hsolutions ?_ ?_
  · rw [hwanted]
    exact fun w hw => .inl hw
  · rw [← hwanted]
    exact hs.waiting

end Scopes

-- Single actions

theorem scopes_report {p : Problem} (hp : p.constraint? = none) (loc : Span) :
    Scopes E A (report p loc) fun _ => True :=
  .of_same (conserves_report hp loc) fun _ => ⟨List.subset_cons_self .., rfl, rfl, rfl⟩

theorem scopes_report_error {p : Problem} (hp : p.constraint? = none) (he : p.severity = .error)
    (loc : Span) : Scopes E A (report p loc) fun _ => False := by
  refine ⟨conserves_report hp loc, fun pending s hb hs => ?_⟩
  have hno := hs.final.accepted ⟨p, loc⟩ (hs.reports (List.mem_cons_self ..))
  rw [Report.isError, he] at hno
  cases hno

theorem scopes_freshUnique : Scopes E A freshUnique fun _ => True :=
  .of_same conserves_freshUnique fun _ => ⟨List.Subset.refl _, rfl, rfl, rfl⟩

theorem scopes_freshUvar : Scopes E A freshUvar fun _ => True :=
  .of_same conserves_freshUvar fun _ => ⟨List.Subset.refl _, rfl, rfl, rfl⟩

theorem scopes_zonk (t : Ty) : Scopes E A (zonk t) fun _ => True :=
  .of_same (conserves_zonk t) fun _ => ⟨List.Subset.refl _, rfl, rfl, rfl⟩

theorem scopes_unify (t u : Ty) (loc : Span) : Scopes E A (unify t u loc) fun _ => True := by
  refine .of_same (conserves_unify t u loc) fun s => ⟨(later_unify t u loc s).reports.subset, ?_⟩
  cases h : (s.subst.unify t u).2 with
  | none =>
    rw [unify_run_of_none loc h]
    exact ⟨rfl, rfl, rfl⟩
  | some e =>
    cases e with
    | clash | infinite =>
      simp only [unify, StateT.run_bind, StateT.run_get, StateT.run_modify, pure_bind, h]
      exact ⟨rfl, rfl, rfl⟩

theorem scopes_note {e : Inferred} (he : e.1.dicts = []) {P : Inferred → Prop} (hP : P e) :
    Scopes E A (note e) P :=
  ⟨conserves_note he, fun _ _ _ hs =>
    ⟨hs.of_later (List.Subset.refl _) (Nat.le_refl _) rfl (fun _ hw => .inl hw) hs.waiting, hP⟩⟩

theorem scopes_rule : ActionRule fun act => Scopes E A act fun _ => True where
  pure _ := .pure trivial
  bind := .skip
  freshUvar := scopes_freshUvar
  freshUnique := scopes_freshUnique
  unify := scopes_unify
  report loc hp := scopes_report hp loc

-- Solving

/-- The dictionaries of evidence that was found for a constraint are around, if those for what it is
reduced to are. -/
theorem Finds.around {env : Env} {sc : Scoping} {σ : Subst} {params : Table (Name × UVar) DictVar}
    {w : Wanted} {goals : List Wanted} {e : Evidence}
    (h : Finds params (σ.applyPred w.pred) goals (env.fate sc σ (w.goal σ)) (some e))
    (hinst : ∀ i ∈ env.globals.instances, ¬ i.name.IsLocal) (hgivens : ∀ d ∈ env.givens, d.name ∈ A)
    (hparams : ∀ d ∈ params.values, d.name ∈ A) :
    (e.head.IsLocal → e.head ∈ A) ∧ ∀ u q, .unsolved u q ∈ e.args → ∃ g ∈ goals, g.hole = u := by
  generalize hf : env.fate sc σ (w.goal σ) = fate at h
  cases h with
  | @reduced x goals _ =>
    obtain ⟨-, hi, -⟩ := InstanceEnv.of_match? (match?_of_fate_eq_reduced hf)
    refine ⟨fun hl => absurd hl (hinst _ hi), fun u q hu => ?_⟩
    obtain ⟨g, hg, heq⟩ := List.mem_map.1 hu
    exact ⟨g, hg, (Hole.unsolved.inj heq).1⟩
  | @given d =>
    obtain ⟨hd, -⟩ := fate_eq_given hf
    exact ⟨fun _ => hgivens d hd, fun u q hu => absurd hu List.not_mem_nil⟩
  | @parameter m d hd =>
    exact ⟨fun _ => hparams d (List.mem_map_of_mem hd), fun u q hu => absurd hu List.not_mem_nil⟩

theorem Finds.goals_eq_nil {params : Table (Name × UVar) DictVar} {p : Pred}
    {goals : List Wanted} {fate : Fate} (h : Finds params p goals fate none) : goals = [] := by
  cases h <;> rfl

/-- The hole of a constraint that waits is its own, and has no solution yet. -/
theorem Balanced.unsolved {w : Wanted} (h : Balanced (w :: pending) s) :
    w.hole < s.holes ∧ w.hole ∉ s.solutions.map Prod.fst ∧
      ∀ w' ∈ pending ++ s.wanted, w'.hole ≠ w.hole := by
  obtain ⟨opened, hperm, -⟩ := h.holes
  obtain ⟨-, hnodup, hapart⟩ := List.nodup_append.1 (hperm.nodup_iff.2 List.nodup_range)
  rw [List.cons_append, List.map_cons] at hnodup hapart
  refine ⟨List.mem_range.1 (hperm.subset (by simp)), fun hmem => ?_, fun w' hw' heq => ?_⟩
  · exact hapart _ (List.mem_append_left _ hmem) _ (List.mem_cons_self ..) rfl
  · exact (List.nodup_cons.1 hnodup).1 (heq ▸ List.mem_map_of_mem hw')

/-- One constraint is solved with the dictionaries that are around. -/
theorem ends_solveOne {env : Env} {sc : Scoping} {acc : Solved} {w : Wanted} {ws : List Wanted}
    (hb : Balanced (w :: (pending ++ (ws ++ acc.deferred))) s)
    (hinst : ∀ i ∈ env.globals.instances, ¬ i.name.IsLocal) (hgivens : ∀ d ∈ env.givens, d.name ∈ A)
    (hparams : ∀ d ∈ ((solveOne env sc acc w).run s).1.1.params.values, d.name ∈ A)
    (h : Ends E A (pending ++ (ws ++ ((solveOne env sc acc w).run s).1.2 ++
      ((solveOne env sc acc w).run s).1.1.deferred)) ((solveOne env sc acc w).run s).2) :
    Ends E A (pending ++ (w :: ws ++ acc.deferred)) s := by
  obtain ⟨-, hwanted, new, hreports, -, hdeferred, -⟩ := @adds_solveOne env sc s.subst acc w s rfl
  have hstep := @step_solveOne env sc s.subst s rfl acc w
  obtain ⟨e, hfinds, hsolutions⟩ := hstep.solutions
  have hgoals := hstep.goals
  have hholes := hstep.holes
  generalize (solveOne env sc acc w).run s = r at *
  obtain ⟨⟨acc', goals⟩, s'⟩ := r
  dsimp only at *
  obtain ⟨later, hlater, hkeys⟩ := h.solutions
  have hnew : ∀ g ∈ goals, s.holes ≤ g.hole := fun g hg =>
    (List.mem_range'_1.1 (hgoals ▸ List.mem_map_of_mem hg)).1
  have hE : E.solutions = later ++ (e.map (w.hole, ·)).toList ++ s.solutions := by
    rw [hlater, hsolutions, List.append_assoc]
  -- The constraint itself
  have hw : ∀ x, Leads E.solutions w.hole x → x.IsLocal → x ∈ A := by
    intro x hx hl
    cases e with
    | some e =>
      have hmem : (w.hole, e) ∈ E.solutions := by simp [hE]
      obtain ⟨e', hmem', hx⟩ := Typed.leads_iff.1 hx
      obtain rfl : e' = e := congrArg Prod.snd
        (List.inj_on_of_nodup_map h.final.nodup hmem' hmem rfl)
      obtain ⟨hhead, hargs⟩ := hfinds.around hinst hgivens hparams
      rcases hx with rfl | ⟨u, q, hu, hx⟩
      · exact hhead hl
      · obtain ⟨g, hg, rfl⟩ := hargs u q hu
        exact h.waiting g (by simp [hg]) x hx hl
    | none =>
      by_cases hfate : (env.fate sc s.subst (w.goal s.subst)).isDeferred
      · rw [if_pos hfate] at hdeferred
        exact h.waiting w (by simp [hdeferred]) x hx hl
      · -- A constraint that is reported is not solved later.
        obtain rfl : goals = [] := hfinds.goals_eq_nil
        rw [if_neg hfate, List.append_nil] at hdeferred
        obtain ⟨hlt, hunsolved, hothers⟩ := hb.unsolved
        obtain ⟨e', hmem, -⟩ := Typed.leads_iff.1 hx
        rw [hE, Option.map_none, Option.toList_none, List.append_nil, List.mem_append] at hmem
        rcases hmem with hmem | hmem
        · rcases hkeys _ (List.mem_map_of_mem hmem) with hge | ⟨w', hw', heq⟩
          · exact absurd hlt (Nat.not_lt.2 (Nat.le_trans (Nat.le.intro hholes.symm) hge))
          · rw [hdeferred, hwanted, List.append_nil] at hw'
            exact absurd heq (hothers w' hw')
        · exact absurd (List.mem_map_of_mem hmem) hunsolved
  have hkept : ∀ w' ∈ pending ++ (ws ++ goals ++ acc'.deferred) ++ s'.wanted,
      w' ∈ pending ++ (w :: ws ++ acc.deferred) ++ s.wanted ∨ w' ∈ goals := by
    intro w' hw'
    have hor : w' ∈ acc'.deferred → w' ∈ acc.deferred ∨ w' = w := by
      rw [hdeferred, List.mem_append]
      refine Or.imp_right fun hmem => ?_
      split at hmem
      · exact List.mem_singleton.1 hmem
      · cases hmem
    rw [hwanted] at hw'
    simp only [List.mem_append, List.mem_cons] at hw' hor ⊢
    tauto
  refine ⟨h.final, fun r hr => h.reports ?_, ⟨_, hE, fun v hv => ?_⟩, fun w' hw' => ?_⟩
  · rw [hreports]
    exact List.mem_append_right _ hr
  · rw [List.map_append, List.mem_append] at hv
    rcases hv with hv | hv
    · rcases hkeys v hv with hge | ⟨w', hw', rfl⟩
      · exact .inl (Nat.le_trans (Nat.le.intro hholes.symm) hge)
      · exact (hkept w' hw').symm.imp (hnew w') fun hw' => ⟨w', hw', rfl⟩
    · obtain rfl : v = w.hole := by
        cases e with
        | none => cases hv
        | some e => exact List.mem_singleton.1 hv
      exact .inr ⟨w, by simp, rfl⟩
  · by_cases heq : w' = w
    · exact heq ▸ hw
    · refine h.waiting w' ?_
      rw [hwanted, hdeferred]
      simp only [List.mem_append, List.mem_cons] at hw' ⊢
      tauto

/-- The dictionaries that the loop makes are around for the constraints that it begins with. -/
theorem Drains.ends {env : Env} (henv : env.Reducing) {sc : Scoping} {acc : Solved}
    {ws : List Wanted} {x : Solved × State} (hx : Drains env sc acc ws s x)
    (hb : Balanced (pending ++ (ws ++ acc.deferred)) s)
    (hinst : ∀ i ∈ env.globals.instances, ¬ i.name.IsLocal) (hgivens : ∀ d ∈ env.givens, d.name ∈ A)
    (hparams : ∀ d ∈ x.1.params.values, d.name ∈ A)
    (h : Ends E A (pending ++ x.1.deferred) x.2) :
    Ends E A (pending ++ (ws ++ acc.deferred)) s := by
  induction hx with
  | done => exact h
  | @next acc w ws s x hx ih =>
    refine ends_solveOne hb.first hinst hgivens (fun d hd => ?_)
      (ih (balanced_next henv hb) hparams h)
    obtain ⟨hle, -⟩ := hx.later rfl
    obtain ⟨p, hp, rfl⟩ := List.mem_map.1 hd
    exact hparams _ (List.mem_map_of_mem (hle hp))

/-- Solving constraints that were put aside needs the dictionaries that are around, and those that
are returned. -/
theorem ends_solve {env : Env} (henv : env.Reducing) {sc : Scoping} {ws : List Wanted}
    (hb : Balanced (pending ++ ws) s)
    (hinst : ∀ i ∈ env.globals.instances, ¬ i.name.IsLocal) (hgivens : ∀ d ∈ env.givens, d.name ∈ A)
    (h : Ends E A pending ((solve env sc ws).run s).2) :
    Ends E (((solve env sc ws).run s).1.map (·.name) ++ A) (pending ++ ws) s := by
  let bound := roundBound (ws.map fun w => { w with pred := s.subst.applyPred w.pred })
  let x := (solveRounds env sc bound {} ws).run s
  have hdrains : Drains env sc {} ws s x :=
    drains_solveRounds henv bound rfl {} ws fun _ => within_roundBound
  have hx : Ends E A (pending ++ x.1.deferred) x.2 := by
    have hsame : ∀ w ∈ pending ++ x.1.deferred ++ x.2.wanted,
        w ∈ pending ++ (x.2.wanted ++ x.1.deferred) := by
      intro w hw
      simp only [List.mem_append] at hw ⊢
      tauto
    refine h.of_later (List.Subset.refl _) (Nat.le_refl _) rfl (fun w hw => .inl ?_) fun w hw =>
      h.waiting w (hsame w hw)
    have hw : w ∈ pending ++ (x.2.wanted ++ x.1.deferred) := hw
    simp only [List.mem_append] at hw ⊢
    tauto
  have hall : Ends E (x.1.params.values.map (·.name) ++ A) (pending ++ (ws ++ [])) s :=
    hdrains.ends henv ((List.append_nil ws).symm ▸ hb) hinst
      (fun d hd => List.mem_append_right _ (hgivens d hd))
      (fun d hd => List.mem_append_left _ (List.mem_map_of_mem hd))
      (hx.mono (List.subset_append_right (x.1.params.values.map (·.name)) A))
  rw [List.append_nil] at hall
  exact hall

/-- What an action raises is put aside, with other dictionaries around. -/
theorem Scopes.collecting {α : Type} {act : CheckM α} {Q : α → Prop} (h : Scopes E A' act Q)
    (hb : Balanced pending s)
    (hs : Ends E A' (pending ++ ((collecting act).run s).1.2) ((collecting act).run s).2)
    (hwaiting : Around E A (pending ++ s.wanted)) :
    Ends E A pending s ∧ Q ((collecting act).run s).1.1 := by
  let s₁ : State := { s with wanted := [] }
  have hb₁ : Balanced (pending ++ s.wanted) s₁ := by
    refine hb.later ⟨.refl _, List.suffix_refl _, List.suffix_refl _⟩ rfl ?_ rfl rfl
      fun _ he => .inl he
    rw [List.append_nil]
  have hs₁ : Ends E A' (pending ++ s.wanted) (act.run s₁).2 := by
    have hsame {w : Wanted} : w ∈ pending ++ (act.run s₁).2.wanted ++ s.wanted ↔
        w ∈ pending ++ s.wanted ++ (act.run s₁).2.wanted := by
      simp only [List.mem_append, or_assoc, or_comm (a := w ∈ s.wanted)]
    exact hs.of_later (List.Subset.refl _) (Nat.le_refl _) rfl (fun w hw => .inl (hsame.1 hw))
      fun w hw => hs.waiting w (hsame.2 hw)
  obtain ⟨hs₁, hQ⟩ := h.ends _ s₁ hb₁ hs₁
  refine ⟨?_, hQ⟩
  refine hs₁.of_later (List.Subset.refl _) (Nat.le_refl _) rfl (fun w hw => .inl ?_) hwaiting
  exact List.append_nil (pending ++ s.wanted) ▸ hw

end Check

end TypeLens
