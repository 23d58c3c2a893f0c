import TypeLens.Proofs.Checking.Solving

/-!
No constraint is lost or dealt with twice, however deep binding groups are nested: each hole that
was made has a solution, was reported, or waits for an enclosing group.
-/

namespace TypeLens

namespace Check

open Typed (DictVar Evidence Hole Ident)

def Report.ofConstraint (r : Report) : Bool := r.problem.constraint?.isSome

/-- A constraint comes from an occurrence, or through an instance from one that does. -/
inductive State.Raised (s : State) : Wanted → Prop
  | occurrence {w : Wanted} {e : Inferred} (he : e ∈ s.inferred)
      (hd : .unsolved w.hole w.pred ∈ e.1.dicts) (hl : w.loc = e.1.loc) : s.Raised w
  | premise {w w' : Wanted} {i : Instance} {ts : List Ty} {args : List Hole} (h : s.Raised w)
      (hs : (w.hole, .byInstance i ts args) ∈ s.solutions)
      (hd : .unsolved w'.hole w'.pred ∈ args) (hl : w'.loc = w.loc) : s.Raised w'

/-- A report is on the constraint `w`, and it is at the occurrence that raised it. -/
def State.Subject (s : State) (w : Wanted) (r : Report) : Prop :=
  s.Raised w ∧ r.loc = w.loc ∧ ∃ p, r.problem.constraint? = some (p, w.use) ∧
    s.subst.applyPred p = s.subst.applyPred w.pred

/-- All holes are accounted for: `pending` are the constraints that enclosing groups have put
aside. -/
structure Balanced (pending : List Wanted) (s : State) : Prop where
  holes : ∃ opened : List Wanted,
    (s.solutions.map Prod.fst ++ opened.map (·.hole) ++ (pending ++ s.wanted).map (·.hole)).Perm
      (List.range s.holes) ∧
    List.Forall₂ s.Subject opened (s.reports.filter (·.ofConstraint))
  raised : ∀ w ∈ pending ++ s.wanted, s.Raised w
  /-- What a solution refers to is solved after it. -/
  ordered : s.solutions.Pairwise fun later earlier => ∀ q, .unsolved earlier.1 q ∉ later.2.args
  args : ∀ p ∈ s.solutions, ∀ d ∈ p.2.args, ∃ v q, d = .unsolved v q ∧ v ≠ p.1 ∧ v < s.holes
  instances : ∀ v i ts ds, (v, .byInstance i ts ds) ∈ s.solutions → i.WellFormed
  noted : ∀ e ∈ s.inferred, ∀ d ∈ e.1.dicts, ∃ v p, d = .unsolved v p ∧ v < s.holes

section

variable {pending pending' : List Wanted} {s s' : State}

theorem State.Raised.mono (hi : s.inferred ⊆ s'.inferred) (hs : s.solutions ⊆ s'.solutions)
    {w : Wanted} (h : s.Raised w) : s'.Raised w := by
  induction h with
  | occurrence he hd hl => exact .occurrence (hi he) hd hl
  | premise _ hsol hd hl ih => exact .premise ih (hs hsol) hd hl

theorem State.Subject.mono (hl : Later s s') (hs : s.solutions ⊆ s'.solutions) {w : Wanted}
    {r : Report} (h : s.Subject w r) : s'.Subject w r := by
  obtain ⟨hraised, hloc, p, hp, hsame⟩ := h
  refine ⟨hraised.mono hl.inferred.subset hs, hloc, p, hp, ?_⟩
  rw [← applyPred_applyPred hl.grows p, hsame, applyPred_applyPred hl.grows]

/-- What has nothing to do with constraints. -/
theorem Balanced.later (h : Balanced pending s) (hl : Later s s') (hholes : s'.holes = s.holes)
    (hwanted : (pending ++ s.wanted).Perm (pending' ++ s'.wanted))
    (hsolutions : s'.solutions = s.solutions)
    (hreports : s'.reports.filter (·.ofConstraint) = s.reports.filter (·.ofConstraint))
    (hinferred : ∀ e ∈ s'.inferred, e ∈ s.inferred ∨ e.1.dicts = []) : Balanced pending' s' := by
  have hsub : s.solutions ⊆ s'.solutions := fun _ hp => hsolutions ▸ hp
  obtain ⟨opened, hperm, hsubject⟩ := h.holes
  refine ⟨⟨opened, ?_, ?_⟩, ?_, hsolutions ▸ h.ordered, ?_, hsolutions ▸ h.instances, ?_⟩
  · rw [hsolutions, hholes]
    exact ((hwanted.symm.map _).append_left _).trans hperm
  · rw [hreports]
    exact hsubject.imp fun _ _ hr => hr.mono hl hsub
  · exact fun w hw => (h.raised w (hwanted.symm.subset hw)).mono hl.inferred.subset hsub
  · rw [hsolutions, hholes]
    exact h.args
  · intro e he d hd
    rw [hholes]
    rcases hinferred e he with he | hnone
    · exact h.noted e he d hd
    · rw [hnone] at hd
      cases hd

end

/-- Any of the constraints that wait can come first. -/
theorem Balanced.first {pending : List Wanted} {w : Wanted} {ws : List Wanted} {s : State}
    (h : Balanced (pending ++ w :: ws) s) : Balanced (w :: (pending ++ ws)) s :=
  h.later (.refl s) rfl (List.perm_middle.append_right _) rfl rfl fun _ he => .inl he

/-- An action after which all holes are accounted for, if they were before. -/
def Conserves {α : Type} (act : CheckM α) : Prop :=
  ∀ pending s, Balanced pending s → Balanced pending (act.run s).2

namespace Conserves

variable {α β : Type} {act : CheckM α}

theorem pure (a : α) : Conserves (Pure.pure a) := fun _ _ h => h

theorem bind {f : α → CheckM β} (h : Conserves act) (hf : ∀ a, Conserves (f a)) :
    Conserves (act >>= f) := fun _ _ hs => hf _ _ _ (h _ _ hs)

theorem bind_of {f : α → CheckM β} {P : α → Prop} (h : Conserves act) (hP : Returns act P)
    (hf : ∀ a, P a → Conserves (f a)) : Conserves (act >>= f) :=
  fun _ s hs => hf _ (hP s) _ _ (h _ _ hs)

theorem mapM {f : α → CheckM β} {xs : List α} (h : ∀ x ∈ xs, Conserves (f x)) :
    Conserves (xs.mapM f) := by
  induction xs with
  | nil => exact .pure []
  | cons x xs ih =>
    rw [List.mapM_cons]
    refine .bind (h x (List.mem_cons_self ..)) fun b => ?_
    exact .bind (ih fun y hy => h y (List.mem_cons_of_mem _ hy)) fun bs => .pure _

theorem forM {f : α → CheckM PUnit} {xs : List α} (h : ∀ x ∈ xs, Conserves (f x)) :
    Conserves (xs.forM f) := by
  induction xs with
  | nil => exact .pure _
  | cons x xs ih =>
    exact .bind (h x (List.mem_cons_self ..)) fun _ =>
      ih fun y hy => h y (List.mem_cons_of_mem _ hy)

end Conserves

-- Single actions

/-- An action that makes no holes, raises or solves no constraints and reports none. -/
theorem Conserves.of_later {α : Type} {act : CheckM α} (h : ∀ s, Later s (act.run s).2 ∧
    (act.run s).2.holes = s.holes ∧ (act.run s).2.wanted = s.wanted ∧
    (act.run s).2.solutions = s.solutions ∧
    (act.run s).2.reports.filter (·.ofConstraint) = s.reports.filter (·.ofConstraint) ∧
    (act.run s).2.inferred = s.inferred) : Conserves act := by
  intro pending s hs
  obtain ⟨hl, hholes, hwanted, hsolutions, hreports, hinferred⟩ := h s
  exact hs.later hl hholes (hwanted ▸ .refl _) hsolutions hreports fun e he => .inl (hinferred ▸ he)

theorem conserves_report {p : Problem} (hp : p.constraint? = none) (loc : Span) :
    Conserves (report p loc) := by
  have hnot : (⟨p, loc⟩ : Report).ofConstraint = false := by rw [Report.ofConstraint, hp]; rfl
  refine .of_later fun s => ⟨⟨.refl _, List.suffix_cons _ _, List.suffix_refl _⟩, rfl, rfl, rfl,
    ?_, rfl⟩
  exact List.filter_cons_of_neg (by simp [hnot])

theorem conserves_freshUnique : Conserves freshUnique :=
  .of_later fun _ => ⟨⟨.refl _, List.suffix_refl _, List.suffix_refl _⟩, rfl, rfl, rfl, rfl, rfl⟩

theorem conserves_freshUvar : Conserves freshUvar :=
  .of_later fun _ => ⟨⟨.refl _, List.suffix_refl _, List.suffix_refl _⟩, rfl, rfl, rfl, rfl, rfl⟩

theorem conserves_zonk (t : Ty) : Conserves (zonk t) :=
  .of_later fun s => ⟨⟨s.subst.grows_zonk t, List.suffix_refl _, List.suffix_refl _⟩, rfl, rfl,
    rfl, rfl, rfl⟩

theorem conserves_unify (a b : Ty) (loc : Span) : Conserves (unify a b loc) := by
  refine .of_later fun s => ⟨later_unify a b loc s, ?_⟩
  cases h : (s.subst.unify a b).2 with
  | none =>
    rw [unify_run_of_none loc h]
    exact ⟨rfl, rfl, rfl, rfl, rfl⟩
  | some e =>
    cases e with
    | clash =>
      simp only [unify, StateT.run_bind, StateT.run_get, StateT.run_modify, pure_bind, h]
      exact ⟨rfl, rfl, rfl, rfl, rfl⟩
    | infinite m t =>
      simp only [unify, StateT.run_bind, StateT.run_get, StateT.run_modify, pure_bind, h]
      exact ⟨rfl, rfl, rfl, rfl, rfl⟩

theorem conserves_note {e : Inferred} (he : e.1.dicts = []) : Conserves (note e) := by
  intro pending s h
  refine h.later (Step.note (P := fun _ => True) (N := fun _ => True) s trivial).later rfl (.refl _)
    rfl rfl fun e' he' => ?_
  rcases List.mem_cons.1 he' with rfl | he'
  · exact .inr he
  · exact .inl he'

theorem conserves_rule : ActionRule Conserves where
  pure := .pure
  bind := .bind
  freshUvar := conserves_freshUvar
  freshUnique := conserves_freshUnique
  unify := conserves_unify
  report loc hp := conserves_report hp loc

theorem range_add_range' (n k : Nat) : List.range (n + k) = List.range n ++ List.range' n k := by
  rw [List.range_eq_range', List.range_eq_range', ← List.range'_append_1, Nat.zero_add]

/-- An occurrence makes a hole for each constraint of a name. -/
theorem conserves_occurrence (h : Typed.Head) (occ : String) (loc : Span) :
    Conserves (occurrence h occ loc) := by
  unfold occurrence
  dsimp only
  split
  · exact .bind (conserves_note rfl) fun _ => .pure _
  refine (conserves_rule.freshFor _).bind fun ts => ?_
  intro pending s hs
  let preds := h.scheme.preds.map (·.substVars (assign h.scheme.tvs ts))
  obtain ⟨goals, hrun, hpreds, hholes, hloc⟩ := run_wantedFor loc occ preds s
  let e : Inferred := (.inst h ts (goals.map fun g => .unsolved g.hole g.pred) loc,
    h.scheme.body.substVars (assign h.scheme.tvs ts))
  let s' : State := { s with
    holes := s.holes + preds.length, wanted := s.wanted ++ goals, inferred := e :: s.inferred }
  rw [StateT.run_bind, hrun]
  change Balanced pending s'
  have hl : Later s s' := ⟨.refl _, List.suffix_refl _, List.suffix_cons _ _⟩
  have hraised : ∀ w ∈ goals, s'.Raised w := fun w hw =>
    .occurrence (List.mem_cons_self ..) (List.mem_map.2 ⟨w, hw, rfl⟩) (hloc w hw)
  obtain ⟨opened, hperm, hsubject⟩ := hs.holes
  refine ⟨⟨opened, ?_, hsubject.imp fun _ _ hr => hr.mono hl fun _ hp => hp⟩, ?_, hs.ordered, ?_,
    hs.instances, ?_⟩
  · have hnew : (pending ++ (s.wanted ++ goals)).map (·.hole) =
        (pending ++ s.wanted).map (·.hole) ++ List.range' s.holes preds.length := by
      rw [← List.append_assoc, List.map_append, hholes]
    rw [hnew, range_add_range', ← List.append_assoc]
    exact hperm.append_right _
  · intro w hw
    rw [← List.append_assoc] at hw
    rcases List.mem_append.1 hw with hw | hw
    · exact (hs.raised w hw).mono hl.inferred.subset fun _ hp => hp
    · exact hraised w hw
  · intro p hp d hd
    obtain ⟨v, q, rfl, hne, hlt⟩ := hs.args p hp d hd
    exact ⟨v, q, rfl, hne, Nat.lt_add_right _ hlt⟩
  · intro e' he' d hd
    rcases List.mem_cons.1 he' with rfl | he'
    · obtain ⟨g, hg, rfl⟩ := List.mem_map.1 hd
      have hmem : g.hole ∈ List.range' s.holes preds.length := hholes ▸ List.mem_map_of_mem hg
      exact ⟨g.hole, g.pred, rfl, (List.mem_range'_1.1 hmem).2⟩
    · obtain ⟨v, q, rfl, hlt⟩ := hs.noted e' he' d hd
      exact ⟨v, q, rfl, Nat.lt_add_right _ hlt⟩

-- Solving

section

variable {pending : List Wanted} {s s' : State} {w : Wanted}

/-- A constraint gets a solution, which may need holes of its own. -/
theorem Balanced.solve (h : Balanced (w :: pending) s) {e : Evidence} {goals : List Wanted}
    (hl : Later s s') (hinferred : s'.inferred ⊆ s.inferred) (hwanted : s'.wanted = s.wanted)
    (hsolutions : s'.solutions = (w.hole, e) :: s.solutions) (hreports : s'.reports = s.reports)
    (hholes : s'.holes = s.holes + goals.length)
    (hgoals : goals.map (·.hole) = List.range' s.holes goals.length)
    (hargs : ∀ d ∈ e.args, ∃ g ∈ goals, d = .unsolved g.hole g.pred)
    (hinst : ∀ i ts ds, e = .byInstance i ts ds → i.WellFormed)
    (hraised : ∀ g ∈ goals, s'.Raised g) : Balanced (pending ++ goals) s' := by
  have hsub : s.solutions ⊆ s'.solutions := fun _ hp => hsolutions ▸ List.mem_cons_of_mem _ hp
  have hnew {g : Wanted} (hg : g ∈ goals) : s.holes ≤ g.hole ∧ g.hole < s'.holes := by
    rw [hholes]
    exact List.mem_range'_1.1 (hgoals ▸ List.mem_map_of_mem hg)
  obtain ⟨opened, hperm, hsubject⟩ := h.holes
  have hkeys : ∀ v ∈ w.hole :: s.solutions.map Prod.fst, v < s.holes := by
    intro v hv
    refine List.mem_range.1 (hperm.subset ?_)
    rcases List.mem_cons.1 hv with rfl | hv
    · simp
    · simp only [List.mem_append, hv, true_or]
  refine ⟨⟨opened, ?_, ?_⟩, ?_, ?_, ?_, fun v i ts ds hp => ?_, ?_⟩
  · rw [hholes, range_add_range', ← hgoals, hsolutions, hwanted]
    refine List.perm_iff_count.2 fun v => ?_
    have hcount := List.perm_iff_count.1 hperm v
    simp only [List.map_cons, List.map_append, List.count_append, List.count_cons,
      List.cons_append] at hcount ⊢
    omega
  · rw [hreports]
    exact hsubject.imp fun _ _ hr => hr.mono hl hsub
  · intro w' hw'
    rw [hwanted, List.append_assoc, List.mem_append, List.mem_append] at hw'
    have hold (hmem : w' ∈ w :: pending ++ s.wanted) : s'.Raised w' :=
      (h.raised w' hmem).mono hl.inferred.subset hsub
    rcases hw' with hw' | hw' | hw'
    · exact hold (List.mem_append_left _ (List.mem_cons_of_mem _ hw'))
    · exact hraised w' hw'
    · exact hold (List.mem_append_right _ hw')
  · rw [hsolutions]
    refine List.pairwise_cons.2 ⟨fun p hp q hq => ?_, h.ordered⟩
    have hlt := hkeys p.1 (List.mem_cons_of_mem _ (List.mem_map_of_mem hp))
    obtain ⟨g, hg, heq⟩ := hargs _ hq
    have hge := (hnew hg).1
    obtain ⟨hhole, -⟩ := Hole.unsolved.inj heq
    omega
  · intro p hp d hd
    rw [hsolutions] at hp
    rcases List.mem_cons.1 hp with rfl | hp
    · have hlt := hkeys w.hole (List.mem_cons_self ..)
      obtain ⟨g, hg, rfl⟩ := hargs d hd
      have hge := hnew hg
      exact ⟨_, _, rfl, by omega, hge.2⟩
    · obtain ⟨v, q, rfl, hne, hlt⟩ := h.args p hp d hd
      exact ⟨v, q, rfl, hne, by omega⟩
  · rw [hsolutions] at hp
    rcases List.mem_cons.1 hp with heq | hp
    · exact hinst i ts ds (Prod.mk.inj heq).2.symm
    · exact h.instances v i ts ds hp
  · intro e' he' d hd
    obtain ⟨v, p, rfl, hlt⟩ := h.noted e' (hinferred he') d hd
    exact ⟨v, p, rfl, by omega⟩

/-- A constraint is reported. -/
theorem Balanced.open (h : Balanced (w :: pending) s) {r : Report} (hl : Later s s')
    (hinferred : s'.inferred ⊆ s.inferred) (hwanted : s'.wanted = s.wanted)
    (hsolutions : s'.solutions = s.solutions) (hreports : s'.reports = r :: s.reports)
    (hholes : s'.holes = s.holes) (hr : s'.Subject w r) : Balanced pending s' := by
  have hsub : s.solutions ⊆ s'.solutions := fun _ hp => hsolutions ▸ hp
  obtain ⟨opened, hperm, hsubject⟩ := h.holes
  refine ⟨⟨w :: opened, ?_, ?_⟩, ?_, hsolutions ▸ h.ordered, ?_, hsolutions ▸ h.instances, ?_⟩
  · rw [hholes, hsolutions, hwanted]
    refine List.perm_iff_count.2 fun v => ?_
    have hcount := List.perm_iff_count.1 hperm v
    simp only [List.map_cons, List.map_append, List.count_append, List.count_cons,
      List.cons_append] at hcount ⊢
    omega
  · have hof : r.ofConstraint = true := by
      obtain ⟨-, -, p, hp, -⟩ := hr
      rw [Report.ofConstraint, hp]
      rfl
    rw [hreports, List.filter_cons_of_pos hof]
    exact .cons hr (hsubject.imp fun _ _ hr => hr.mono hl hsub)
  · intro w' hw'
    rw [hwanted] at hw'
    exact (h.raised w' (List.mem_cons_of_mem _ hw')).mono hl.inferred.subset hsub
  · rw [hsolutions, hholes]
    exact h.args
  · intro e he
    rw [hholes]
    exact h.noted e (hinferred he)

theorem Quiet.inferred_subset {α : Type} {act : CheckM α} (h : Quiet act) (s : State) :
    (act.run s).2.inferred ⊆ s.inferred :=
  (h.evolves (N := (· ∈ s.inferred)) s).noted fun _ he => he

end

variable {env : Env} {sc : Scoping} {pending : List Wanted}

theorem loc_of_mem_premises {σ : Subst} {is : InstanceEnv} {q p : Goal}
    (h : p ∈ q.premises σ is) : p.loc = q.loc := by
  unfold Goal.premises at h
  split at h
  · obtain ⟨r, -, rfl⟩ := List.mem_map.1 h
    rfl
  · cases h

/-- The subject of the report on a constraint. -/
theorem subject_of_report? {s s' : State} {w : Wanted} {fate : Fate} {r : Report} (hl : Later s s')
    (hr : (w.goal s.subst).report? fate = some r) (hw : s'.Raised w) : s'.Subject w r := by
  have hsame : s'.subst.applyPred (s.subst.applyPred w.pred) = s'.subst.applyPred w.pred :=
    applyPred_applyPred hl.grows w.pred
  cases fate with
  | reduced | given | parameter | deferred => cases hr
  | noInstance | cannotDeduce | ambiguous =>
    cases hr
    exact ⟨hw, rfl, _, rfl, hsame⟩

/-- Reducing a constraint in these surroundings makes it smaller. -/
def Env.Reducing (env : Env) : Prop := ∀ i ∈ env.globals.instances, i.WellFormed

theorem Env.Reducing.extend (h : env.Reducing) (ids : Locals) : (env.extend ids).Reducing := h

theorem Env.Reducing.of_globals_eq (h : env.Reducing) {env' : Env}
    (he : env'.globals = env.globals) : env'.Reducing := fun i hi => h i (he ▸ hi)

theorem Env.Reducing.sign (h : env.Reducing) (givens : List DictVar) (tvs : List String) :
    Env.Reducing { env with givens := env.givens ++ givens, rigid := env.rigid ++ tvs } := h

/-- One constraint is solved, reported or deferred, and those that it is reduced to wait. -/
theorem balanced_solveOne (henv : env.Reducing) {s : State} {w : Wanted}
    (h : Balanced (w :: pending) s) (acc : Solved) :
    Balanced (pending ++ ((solveOne env sc acc w).run s).1.2 ++
      if (env.fate sc s.subst (w.goal s.subst)).isDeferred then [w] else [])
      ((solveOne env sc acc w).run s).2 := by
  have hquiet := quiet_solveOne env sc acc w
  have hl : Later s ((solveOne env sc acc w).run s).2 :=
    (hquiet.evolves (N := fun _ => True) s).later
  have hinferred := hquiet.inferred_subset s
  obtain ⟨-, hwanted, new, hreports, hnew, -, hgoals⟩ :=
    @adds_solveOne env sc s.subst acc w s rfl
  have hstep := @step_solveOne env sc s.subst s rfl acc w
  obtain ⟨e, hfinds, hsolutions⟩ := hstep.solutions
  have hholes := hstep.holes
  have hnumbers := hstep.goals
  have hinst : ∀ x, env.fate sc s.subst (w.goal s.subst) = .reduced x → x.inst.WellFormed :=
    fun x hx => henv _ (InstanceEnv.of_match? (match?_of_fate_eq_reduced hx)).2.1
  generalize (solveOne env sc acc w).run s = r at *
  obtain ⟨⟨acc', goals⟩, s'⟩ := r
  unfold Env.report? at hnew
  generalize env.fate sc s.subst (w.goal s.subst) = fate at *
  subst hnew
  have hraised : s.Raised w := h.raised w (List.mem_cons_self ..)
  have hopen (r : Report) (hr : (w.goal s.subst).report? fate = some r)
      (hsolutions : s'.solutions = s.solutions) (hholes : s'.holes = s.holes) :
      Balanced pending s' := by
    have hraised' : s'.Raised w := hraised.mono hl.inferred.subset fun _ hp => hsolutions ▸ hp
    refine h.open hl hinferred hwanted hsolutions ?_ hholes (subject_of_report? hl hr hraised')
    rw [hr] at hreports
    exact hreports
  have hsolve (e : Evidence) (hr : (w.goal s.subst).report? fate = none)
      (hsolutions : s'.solutions = (w.hole, e) :: s.solutions)
      (hargs : ∀ d ∈ e.args, ∃ g ∈ goals, d = .unsolved g.hole g.pred)
      (hinst : ∀ i ts ds, e = .byInstance i ts ds → i.WellFormed)
      (hraised : ∀ g ∈ goals, s'.Raised g) : Balanced (pending ++ goals) s' := by
    rw [hr] at hreports
    exact h.solve hl hinferred hwanted hsolutions hreports hholes hnumbers hargs hinst hraised
  cases hfinds with
  | @reduced x goals hpreds =>
    simp only [Fate.isDeferred, Bool.false_eq_true, if_false, List.append_nil]
    refine hsolve _ rfl hsolutions (fun d hd => ?_) (fun i ts ds he => ?_) fun g hg => ?_
    · obtain ⟨g, hg, rfl⟩ := List.mem_map.1 hd
      exact ⟨g, hg, rfl⟩
    · obtain ⟨rfl, -, -⟩ := Evidence.byInstance.inj he
      exact hinst x rfl
    have hmem : g.goal s.subst ∈ (w.goal s.subst).premises s.subst env.globals.instanceEnv :=
      hgoals ▸ List.mem_map_of_mem hg
    have hw : s'.Raised w := hraised.mono hl.inferred.subset fun p hp => by
      rw [hsolutions]
      exact List.mem_cons_of_mem _ hp
    have hhole : Hole.unsolved g.hole g.pred ∈ goals.map fun g => .unsolved g.hole g.pred :=
      List.mem_map.2 ⟨g, hg, rfl⟩
    have hsol : (w.hole, .byInstance x.inst x.typeArgs
        (goals.map fun g => .unsolved g.hole g.pred)) ∈ s'.solutions := by
      rw [hsolutions]
      exact List.mem_cons_self ..
    exact .premise hw hsol hhole (loc_of_mem_premises hmem)
  | given | parameter =>
    simp only [Fate.isDeferred, Bool.false_eq_true, if_false, List.append_nil]
    exact List.append_nil pending ▸ hsolve _ rfl hsolutions (by simp [Evidence.args])
      (fun _ _ _ he => by cases he) (by simp)
  | deferred =>
    simp only [Fate.isDeferred, if_true, List.append_nil]
    refine h.later hl hholes ?_ hsolutions (congrArg _ hreports) fun e he => .inl (hinferred he)
    rw [hwanted]
    exact (List.perm_append_singleton w pending).symm.append_right _
  | noInstance | cannotDeduce | ambiguous =>
    simp only [Fate.isDeferred, Bool.false_eq_true, if_false, List.append_nil]
    exact hopen _ rfl hsolutions hholes

/-- A constraint goes first and those that it is reduced to go last, in the order of the loop. -/
theorem balanced_next (henv : env.Reducing) {acc : Solved} {w : Wanted} {ws : List Wanted}
    {s : State} (h : Balanced (pending ++ (w :: ws ++ acc.deferred)) s) :
    Balanced (pending ++ (ws ++ ((solveOne env sc acc w).run s).1.2 ++
      ((solveOne env sc acc w).run s).1.1.deferred)) ((solveOne env sc acc w).run s).2 := by
  obtain ⟨-, -, -, -, -, hdeferred, -⟩ := @adds_solveOne env sc s.subst acc w s rfl
  have hfirst : Balanced (w :: (pending ++ (ws ++ acc.deferred))) s := h.first
  have hstep := @balanced_solveOne env sc _ henv s w hfirst acc
  refine hstep.later (.refl _) rfl (List.Perm.append_right _ ?_) rfl rfl fun _ he => .inl he
  rw [hdeferred]
  simp only [List.append_assoc]
  exact ((List.perm_append_comm_assoc ..).append_left _).append_left _

theorem Drains.balanced (henv : env.Reducing) {acc : Solved} {ws : List Wanted} {s : State}
    {x : Solved × State} (hx : Drains env sc acc ws s x) (h : Balanced (pending ++ (ws ++ acc.deferred)) s) :
    Balanced (pending ++ x.1.deferred) x.2 := by
  induction hx with
  | done => exact h
  | next _ ih => exact ih (balanced_next henv h)

/-- Solving constraints that were put aside accounts for all of them. -/
theorem balanced_solve (henv : env.Reducing) (sc : Scoping) {ws : List Wanted} {s : State}
    (h : Balanced (pending ++ ws) s) : Balanced pending ((Check.solve env sc ws).run s).2 := by
  let bound := roundBound (ws.map fun w => { w with pred := s.subst.applyPred w.pred })
  let x := (solveRounds env sc bound {} ws).run s
  have hx : Drains env sc {} ws s x :=
    drains_solveRounds henv bound rfl {} ws fun _ => within_roundBound
  have hbalanced : Balanced (pending ++ x.1.deferred) x.2 := by
    refine hx.balanced henv ?_
    rw [List.append_nil]
    exact h
  have hl : Later x.2 ((Check.solve env sc ws).run s).2 :=
    ⟨.refl _, List.suffix_refl _, List.suffix_refl _⟩
  refine hbalanced.later hl rfl ?_ rfl rfl fun _ he => .inl he
  rw [List.append_assoc]
  exact List.perm_append_comm.append_left _

/-- What an action raises is put aside. -/
theorem balanced_collecting {α : Type} {act : CheckM α} (hact : Conserves act) {s : State}
    (h : Balanced pending s) :
    Balanced (pending ++ ((collecting act).run s).1.2) ((collecting act).run s).2 := by
  let s₁ : State := { s with wanted := [] }
  have hbefore : Balanced (pending ++ s.wanted) s₁ := by
    refine h.later ⟨.refl _, List.suffix_refl _, List.suffix_refl _⟩ rfl ?_ rfl rfl
      fun _ he => .inl he
    rw [List.append_nil]
  have hafter := hact _ _ hbefore
  refine hafter.later ⟨.refl _, List.suffix_refl _, List.suffix_refl _⟩ rfl ?_ rfl rfl
    fun _ he => .inl he
  rw [List.append_assoc, List.append_assoc]
  exact List.perm_append_comm.append_left _

-- Names and operators

theorem conserves_unknownName (env : Env) (occ : String) (loc : Span) :
    Conserves (unknownName env occ loc) :=
  .bind conserves_freshUvar fun t => .bind (conserves_rule.newLocal env occ t) fun _ =>
    conserves_note rfl

theorem conserves_inferVar (env : Env) (occ : String) (loc : Span) :
    Conserves (inferVar env occ loc) := by
  unfold inferVar
  split
  · exact conserves_occurrence _ _ _
  split
  · next he =>
    exact .bind (conserves_report (constraint?_of_resolve he) _) fun _ =>
      conserves_unknownName _ _ _
  split
  · exact conserves_occurrence _ _ _
  · exact conserves_occurrence _ _ _
  · exact conserves_unknownName _ _ _

theorem conserves_inferCon (env : Env) (occ : String) (loc : Span) :
    Conserves (inferCon env occ loc) := by
  unfold inferCon
  split
  · next he =>
    exact .bind (conserves_report (constraint?_of_resolve he) _) fun _ =>
      conserves_unknownName _ _ _
  split
  · exact conserves_occurrence _ _ _
  · exact .bind (conserves_report rfl _) fun _ => conserves_unknownName _ _ _

theorem conserves_inferOp (env : Env) (op : Surface.OpRef) : Conserves (inferOp env op) := by
  unfold inferOp
  split
  · exact conserves_inferCon _ _ _
  · exact conserves_inferVar _ _ _

theorem conserves_inferTree (env : Env) {t : PartTree}
    (h : ∀ p ∈ t.operands, Conserves p.infer) : Conserves (inferTree env t) := by
  induction t with
  | leaf p => exact h p (List.mem_singleton.2 rfl)
  | node l op r ihl ihr =>
    simp only [OpTree.operands, List.mem_append] at h
    unfold inferTree
    refine .bind (ihl fun p hp => h p (.inl hp)) fun l' => ?_
    refine .bind (conserves_inferOp env op) fun op' => ?_
    refine .bind (ihr fun p hp => h p (.inr hp)) fun r' => .bind conserves_freshUvar fun res => ?_
    refine .bind (conserves_zonk _) fun t => ?_
    split
    · exact .bind (conserves_unify _ _ _) fun _ => .bind (conserves_unify _ _ _) fun _ =>
        conserves_note rfl
    · exact .bind (conserves_unify _ _ _) fun _ => conserves_note rfl

theorem conserves_inferRow (env : Env) (first : Part) (rest : List (Surface.OpRef × Part))
    (hf : Conserves first.infer) (hr : ∀ p ∈ rest, Conserves p.2.infer) :
    Conserves (inferRow env first rest) := by
  refine .bind (.forM fun c _ => conserves_report rfl _) fun _ => ?_
  refine conserves_inferTree env fun p hp => ?_
  rw [OpTree.operands_resolve] at hp
  rcases List.mem_cons.1 hp with rfl | hp
  · exact hf
  · obtain ⟨q, hq, rfl⟩ := List.mem_map.1 hp
    exact hr q hq

theorem conserves_inferElems (elemTy : Ty) {ps : List Part} (h : ∀ p ∈ ps, Conserves p.infer) :
    Conserves (inferElems elemTy ps) := by
  induction ps with
  | nil => exact .pure _
  | cons p ps ih =>
    refine .bind (h p (List.mem_cons_self ..)) fun e => .bind (conserves_unify _ _ _) fun _ => ?_
    exact .bind (ih fun q hq => h q (List.mem_cons_of_mem _ hq)) fun es => .pure _

-- Equations and bindings

/-- The right-hand side of an equation accounts for all holes, whatever identifiers are around. -/
def Row.Conserving (r : Row) : Prop := ∀ env : Env, env.Reducing → Conserves (r.rhs env)

def FunJob.Conserving (j : FunJob) : Prop := ∀ r ∈ j.first :: j.rest, r.Conserving

def Job.Conserving : Job → Prop
  | .fn j => j.Conserving
  | .pat _ rhs _ => ∀ env : Env, env.Reducing → Conserves (rhs env)

section

variable {env : Env} (henv : env.Reducing)
include henv

theorem conserves_checkRow (argTys : List Ty) (resTy : Ty) {r : Row} (h : r.Conserving) :
    Conserves (checkRow env argTys resTy r) :=
  .bind (conserves_rule.checkPats env [] r.pats argTys []) fun _ => 
    .bind (h _ (henv.extend _)) fun _ => .bind (conserves_unify _ _ _) fun _ => .pure _

theorem conserves_checkGroup (expected : Ty) {first : Row} {rest : List Row}
    (h : ∀ r ∈ first :: rest, r.Conserving) :
    Conserves (checkGroup env expected first rest) :=
  .bind (conserves_rule.freshFor _) fun ts => .bind conserves_freshUvar fun t =>
    .bind (conserves_unify _ _ _) fun _ =>
      .bind (.mapM fun r hr => conserves_checkRow henv ts t (h r hr)) fun _ => .pure _

theorem conserves_check {j : Job} (h : j.Conserving) (group : Bound) :
    Conserves (j.check env group) := by
  cases j with
  | fn j =>
    have hfn (i : Ident) : Conserves
        (do return Typed.Bind.fn i (← checkGroup env i.scheme.body j.first j.rest) j.loc) :=
      .bind (conserves_checkGroup henv _ h) fun _ => .pure _
    unfold Job.check
    dsimp only
    split
    · exact .bind (.pure _) fun i => hfn i
    · exact .bind conserves_freshUvar fun t => .bind (conserves_rule.newLocal _ _ _) fun i => hfn i
  | pat p rhs l =>
    exact .bind (h env henv) fun e => .bind (conserves_rule.checkPat env group p e.2 []) fun _ =>
      .pure _

omit henv in
theorem conserves_groupIdents {nameOf : String → CheckM Name} (hn : ∀ occ, Conserves (nameOf occ))
    (acc : Bound) (bs : List (String × Span)) : Conserves (groupIdents nameOf acc bs) := by
  induction bs generalizing acc with
  | nil => exact .pure _
  | cons b bs ih =>
    unfold groupIdents
    split
    · exact ih acc
    · exact .bind (hn _) fun n => .bind conserves_freshUvar fun t => ih _

theorem balanced_openGroup {nameOf : String → CheckM Name} (hn : ∀ occ, Conserves (nameOf occ))
    {js : List Job} (h : ∀ j ∈ js, j.Conserving) {s : State} (hs : Balanced pending s) :
    Balanced (pending ++ ((openGroup env nameOf js).run s).1.raised)
      ((openGroup env nameOf js).run s).2 := by
  have hmonos := conserves_groupIdents hn [] (js.flatMap Job.binders) pending s hs
  let monos := ((groupIdents nameOf [] (js.flatMap Job.binders)).run s).1
  have hjobs : Conserves (js.mapM (Job.check (env.extend monos) monos)) :=
    .mapM fun j hj => conserves_check (henv.extend monos) (h j hj) _
  exact balanced_collecting hjobs hmonos

theorem balanced_closeGroup (o : OpenGroup)
    (loc : Span) {s : State} (hs : Balanced (pending ++ o.raised) s) :
    Balanced pending ((closeGroup env o loc).run s).2 := by
  rw [run_closeGroup]
  let sc : Scoping := ⟨o.uvars s.subst, o.outer⟩
  let tvs := freshTyvars env.rigid (o.uvars s.subst).length
  let s' := ((solve env sc o.raised).run s).2
  have hsolve : Balanced pending s' := balanced_solve henv sc hs
  have hl : Later s' ((skolemise (o.uvars s.subst) tvs).run s').2 := by
    refine (Step.skolemise (P := fun _ => True) (N := fun _ => True) s' tvs (nodup_eraseDups _)
      fun m hm => ?_).later
    rw [(quiet_solve env sc o.raised).image? s]
    exact OpenGroup.image?_of_mem_uvars hm
  exact hsolve.later hl rfl (.refl _) rfl rfl fun _ he => .inl he

theorem conserves_inferGroup
    {nameOf : String → CheckM Name} (hn : ∀ occ, Conserves (nameOf occ)) {js : List Job}
    (h : ∀ j ∈ js, j.Conserving) : Conserves (inferGroup env nameOf js) :=
  fun _ _ hs => balanced_closeGroup henv _ _ (balanced_openGroup henv hn h hs)

theorem conserves_inferGroups {gs : List (List Job)}
    (h : ∀ js ∈ gs, ∀ j ∈ js, j.Conserving) : Conserves (inferGroups env gs) := by
  induction gs generalizing env with
  | nil => exact .pure _
  | cons js gs ih =>
    refine .bind (conserves_inferGroup henv (conserves_rule.localName env)
      (h js (List.mem_cons_self ..))) fun r => ?_
    exact .bind (ih (henv.extend _) fun js hjs => h js (List.mem_cons_of_mem _ hjs)) fun _ =>
      .pure _

omit henv in
theorem conserves_reportRepeated (seen : List String) (bs : List (String × Span)) :
    Conserves (reportRepeated seen bs) := by
  induction bs generalizing seen with
  | nil => exact .pure _
  | cons b bs ih => exact .bind (conserves_rule.reportIf _ _ rfl) fun _ => ih _

theorem conserves_inferLocals {js : List (Surface.Dependencies × Job)}
    (h : ∀ j ∈ js, j.2.Conserving) : Conserves (inferLocals env js) := by
  refine .bind (conserves_reportRepeated _ _) fun _ => ?_
  refine conserves_inferGroups henv fun js' hjs j hj => ?_
  obtain ⟨y, hy, rfl⟩ := Surface.mem_of_mem_groupsOf hjs hj
  exact h y hy

theorem balanced_openSigned (poly : Ident) {j : FunJob} (h : j.Conserving) {s : State}
    (hs : Balanced pending s) :
    Balanced (pending ++ ((openSigned env poly j).run s).1.2.2)
      ((openSigned env poly j).run s).2 := by
  let givens : CheckM (List DictVar) :=
    poly.scheme.preds.mapM fun p => return ⟨← dictName env p.cls, p⟩
  have hgivens : Conserves givens :=
    .mapM fun p _ => .bind (conserves_rule.localName _ _) fun _ => .pure _
  have hinner := henv.sign (givens.run s).1 poly.scheme.tvs
  have hgroup := conserves_checkGroup hinner poly.scheme.body h
  exact balanced_collecting hgroup (hgivens pending s hs)

theorem conserves_checkSigned (poly : Ident) {j : FunJob} (h : j.Conserving) :
    Conserves (checkSigned env poly j) := by
  intro pending s hs
  rw [run_checkSigned]
  exact balanced_solve (henv.sign _ _) _ (balanced_openSigned henv poly h hs)

end

-- Expressions, by recursion on the tree

mutual

theorem conserves_infer {env : Env}
    (henv : env.Reducing) : ∀ e : Surface.Expr, Conserves (infer env e)
  | .var n l => by
    unfold infer
    exact conserves_inferVar env n l
  | .con n l => by
    unfold infer
    exact conserves_inferCon env n l
  | .lit v l => by
    unfold infer
    exact conserves_note rfl
  | .app f a l => by
    unfold infer
    refine .bind (conserves_infer henv f) fun f' => .bind (conserves_infer henv a) fun a' => ?_
    refine .bind (conserves_zonk _) fun t => ?_
    split
    · exact .bind (conserves_unify _ _ _) fun _ => conserves_note rfl
    · exact .bind conserves_freshUvar fun t => .bind (conserves_unify _ _ _) fun _ =>
        conserves_note rfl
  | .row e es l => by
    unfold infer
    exact conserves_inferRow env _ _ (conserves_infer henv e) (conserves_operands henv es)
  | .lambda ps e l => by
    unfold infer
    refine .bind conserves_freshUvar fun t => ?_
    refine .bind (conserves_checkGroup henv t fun r hr => ?_) fun _ => conserves_note rfl
    obtain rfl := List.mem_singleton.1 hr
    exact fun env henv => conserves_infer henv e
  | .letIn bs e l => by
    unfold infer
    refine (conserves_inferLocals henv (conserving_jobs bs)).bind_of (returns_inferLocals env _)
      fun r hr => ?_
    exact .bind (conserves_infer (henv.of_globals_eq hr) e) fun _ => conserves_note rfl
  | .ifThenElse c y n l => by
    unfold infer
    refine .bind (conserves_infer henv c) fun c' => .bind (conserves_unify _ _ _) fun _ => ?_
    refine .bind (conserves_infer henv y) fun y' => ?_
    exact .bind (conserves_infer henv n) fun n' => .bind (conserves_unify _ _ _) fun _ =>
      conserves_note rfl
  | .caseOf s as l => by
    unfold infer
    refine .bind (conserves_infer henv s) fun s' => .bind conserves_freshUvar fun t => ?_
    refine .bind (.mapM fun r hr => ?_) fun _ => conserves_note rfl
    exact conserves_checkRow henv _ t (conserving_altRows as r hr)
  | .list es l => by
    unfold infer
    refine .bind conserves_freshUvar fun t => ?_
    exact .bind (conserves_inferElems t (conserves_parts henv es)) fun _ => conserves_note rfl
  | .par e l => by
    unfold infer
    exact .bind (conserves_infer henv e) fun _ => conserves_note rfl

theorem conserves_parts {env : Env}
    (henv : env.Reducing) :
    ∀ es : List Surface.Expr, ∀ p ∈ parts env es, Conserves p.infer
  | [], p, hp => by
    unfold parts at hp
    cases hp
  | e :: es, p, hp => by
    unfold parts at hp
    rcases List.mem_cons.1 hp with rfl | hp
    · exact conserves_infer henv e
    · exact conserves_parts henv es p hp

theorem conserves_operands {env : Env}
    (henv : env.Reducing) :
    ∀ es : List Surface.Operand, ∀ p ∈ operands env es, Conserves p.2.infer
  | [], p, hp => by
    unfold operands at hp
    cases hp
  | .mk op e :: es, p, hp => by
    unfold operands at hp
    rcases List.mem_cons.1 hp with rfl | hp
    · exact conserves_infer henv e
    · exact conserves_operands henv es p hp

theorem conserving_altRows :
    ∀ as : List Surface.Alt, ∀ r ∈ altRows as, r.Conserving
  | [], r, hr => by
    unfold altRows at hr
    cases hr
  | .mk p e l :: as, r, hr => by
    unfold altRows at hr
    rcases List.mem_cons.1 hr with rfl | hr
    · exact fun env henv => conserves_infer henv e
    · exact conserving_altRows as r hr

theorem conserving_matchRow :
    ∀ m : Surface.Match, (matchRow m).Conserving
  | .mk ps e l => by
    unfold matchRow
    exact fun env henv => conserves_infer henv e

theorem conserving_matchRows :
    ∀ ms : List Surface.Match, ∀ r ∈ matchRows ms, r.Conserving
  | [], r, hr => by
    unfold matchRows at hr
    cases hr
  | m :: ms, r, hr => by
    unfold matchRows at hr
    rcases List.mem_cons.1 hr with rfl | hr
    · exact conserving_matchRow m
    · exact conserving_matchRows ms r hr

theorem conserving_funJob :
    ∀ b : Surface.FunBind, (funJob b).Conserving
  | .mk n nl m ms l => by
    intro r hr
    unfold funJob at hr
    rcases List.mem_cons.1 hr with rfl | hr
    · exact conserving_matchRow m
    · exact conserving_matchRows ms r hr

theorem conserving_job :
    ∀ b : Surface.Binding, (job b).Conserving
  | .fn b => by
    unfold job
    exact conserving_funJob b
  | .pat (.mk p e l) => by
    unfold job
    exact fun env henv => conserves_infer henv e

theorem conserving_jobs :
    ∀ bs : List Surface.Binding, ∀ j ∈ jobs bs, j.2.Conserving
  | [], j, hj => by
    unfold jobs at hj
    cases hj
  | b :: bs, j, hj => by
    unfold jobs at hj
    rcases List.mem_cons.1 hj with rfl | hj
    · exact conserving_job b
    · exact conserving_jobs bs j hj

end

-- Modules

/-- An action that accounts for all holes and leaves no constraint to others. -/
structure Closes {α : Type} (act : CheckM α) : Prop where
  conserves : Conserves act
  wanted : ∀ s, (act.run s).2.wanted = s.wanted

namespace Closes

variable {α β : Type} {act : CheckM α}

theorem pure (a : α) : Closes (Pure.pure a) := ⟨.pure a, fun _ => rfl⟩

theorem bind {f : α → CheckM β} (h : Closes act) (hf : ∀ a, Closes (f a)) :
    Closes (act >>= f) :=
  ⟨.bind h.conserves fun a => (hf a).conserves, fun s => ((hf _).wanted _).trans (h.wanted s)⟩

theorem bind_of {f : α → CheckM β} {P : α → Prop} (h : Closes act) (hP : Returns act P)
    (hf : ∀ a, P a → Closes (f a)) : Closes (act >>= f) :=
  ⟨.bind_of h.conserves hP fun a ha => (hf a ha).conserves,
    fun s => ((hf _ (hP s)).wanted _).trans (h.wanted s)⟩

theorem mapM {f : α → CheckM β} {xs : List α} (h : ∀ x ∈ xs, Closes (f x)) :
    Closes (xs.mapM f) := by
  induction xs with
  | nil => exact .pure []
  | cons x xs ih =>
    rw [List.mapM_cons]
    refine .bind (h x (List.mem_cons_self ..)) fun b => ?_
    exact .bind (ih fun y hy => h y (List.mem_cons_of_mem _ hy)) fun bs => .pure _

theorem forM {f : α → CheckM PUnit} {xs : List α} (h : ∀ x ∈ xs, Closes (f x)) :
    Closes (xs.forM f) := by
  induction xs with
  | nil => exact .pure _
  | cons x xs ih =>
    exact .bind (h x (List.mem_cons_self ..)) fun _ =>
      ih fun y hy => h y (List.mem_cons_of_mem _ hy)

theorem report {p : Problem} (hp : p.constraint? = none) (loc : Span) : Closes (report p loc) :=
  ⟨conserves_report hp loc, fun _ => rfl⟩

theorem reportIf (c : Bool) {p : Problem} (hp : p.constraint? = none) (loc : Span) :
    Closes (reportIf c p loc) := by
  unfold Check.reportIf
  split
  · exact .report hp loc
  · exact .pure _

theorem localName (env : Env) (occ : String) : Closes (localName env occ) :=
  ⟨conserves_rule.localName env occ, fun _ => rfl⟩

theorem freshUvar : Closes freshUvar := ⟨conserves_freshUvar, fun _ => rfl⟩

end Closes

theorem mem_outer_of_isDeferred {sc : Scoping} {σ : Subst} {is : InstanceEnv}
    {givens : List DictVar} {p : Pred} (h : (sc.fate σ is givens p).isDeferred) :
    ∃ m, m ∈ sc.outer := by
  unfold Scoping.fate at h
  split at h
  · split at h <;> cases h
  · next m _ =>
    split at h
    · cases h
    · split at h
      · next hm => exact ⟨m, hm⟩
      · cases h
  · split at h <;> cases h

section

variable {env : Env} (henv : env.Reducing) (hlocals : env.locals = [])
include henv

/-- Where no identifiers are around, no constraint is deferred. -/
theorem wanted_solve {sc : Scoping} (hsc : sc.outer = []) (ws : List Wanted) (s : State) :
    ((Check.solve env sc ws).run s).2.wanted = s.wanted := by
  obtain ⟨all, -, hwanted, -⟩ := run_solve henv sc ws s
  have hnone : ∀ w ∈ all, ¬ (env.fate sc s.subst (w.goal s.subst)).isDeferred := by
    intro w _ hdeferred
    obtain ⟨m, hm⟩ := mem_outer_of_isDeferred hdeferred
    rw [hsc] at hm
    cases hm
  rw [hwanted, List.filter_eq_nil_iff.2 hnone, List.append_nil]

include hlocals

theorem closes_inferGroup {nameOf : String → CheckM Name} (hn : ∀ occ, Closes (nameOf occ))
    {js : List Job} (h : ∀ j ∈ js, j.Conserving) : Closes (inferGroup env nameOf js) := by
  refine ⟨conserves_inferGroup henv (fun occ => (hn occ).conserves) h, fun s => ?_⟩
  have hidents (acc : Bound) (bs : List (String × Span)) : Closes (groupIdents nameOf acc bs) := by
    induction bs generalizing acc with
    | nil => exact .pure _
    | cons b bs ih =>
      unfold groupIdents
      split
      · exact ih acc
      · exact .bind (hn _) fun n => .bind .freshUvar fun t => ih _
  let r := (openGroup env nameOf js).run s
  have hopen : r.2.wanted = s.wanted := (hidents [] (js.flatMap Job.binders)).wanted s
  have houter : r.1.outer = [] := by
    have heq : r.1.outer = uvarsOf s.subst env.locals := rfl
    rw [heq, hlocals]
    rfl
  have hclose : ((closeGroup env r.1 (groupLoc js)).run r.2).2.wanted = r.2.wanted := by
    rw [run_closeGroup]
    exact wanted_solve henv houter r.1.raised r.2
  exact hclose.trans hopen

theorem closes_checkSigned (poly : Ident) {j : FunJob} (h : j.Conserving) :
    Closes (checkSigned env poly j) := by
  refine ⟨conserves_checkSigned henv poly h, fun s => ?_⟩
  have hgivens : Closes (poly.scheme.preds.mapM fun p =>
      (do return ⟨← dictName env p.cls, p⟩ : CheckM DictVar)) :=
    .mapM fun p _ => .bind (.localName _ _) fun _ => .pure _
  have hopen : ((openSigned env poly j).run s).2.wanted = s.wanted := hgivens.wanted s
  rw [run_checkSigned]
  refine (wanted_solve (henv.sign _ _) ?_ _ _).trans hopen
  rw [hlocals]
  rfl

end

theorem closes_topGroup {once : Prop} {is : List Instance} {d : Declaring}
    (hd : d.WellFormed once is) {g : List Job} (h : ∀ j ∈ g, j.Conserving) :
    Closes (topGroup d g) := by
  let env : Env := { globals := d.globals }
  have henv : env.Reducing := hd.globals.instances
  have hgroup : Closes (inferGroup env (fun occ => return topName d.globals.module .value occ) g >>=
      fun r => return ([r.1], addIdents d r.2)) :=
    .bind (closes_inferGroup henv rfl (fun _ => .pure _) h) fun r => .pure _
  unfold topGroup
  split
  · exact .pure _
  dsimp only
  split
  · split
    · exact .bind (closes_checkSigned henv rfl _ (h _ (List.mem_singleton.2 rfl))) fun b => .pure _
    · exact hgroup
  · exact hgroup

theorem closes_topGroups {once : Prop} {is : List Instance} {d : Declaring}
    (hd : d.WellFormed once is) {gs : List (List Job)} (h : ∀ g ∈ gs, ∀ j ∈ g, j.Conserving) :
    Closes (topGroups d gs) := by
  induction gs generalizing d with
  | nil => exact .pure _
  | cons g gs ih =>
    refine .bind_of (closes_topGroup hd (h g (List.mem_cons_self ..)))
      (returns_topGroup (fun _ ids hd => hd.addIdents ids) hd g) fun r hr => ?_
    exact .bind (ih hr fun g hg => h g (List.mem_cons_of_mem _ hg)) fun _ => .pure _

theorem closes_methodBinds {env : Env} (henv : env.Reducing) (hlocals : env.locals = [])
    (c : TypeClass) (i : Instance) (seen : List String) {js : List FunJob}
    (h : ∀ j ∈ js, j.Conserving) : Closes (methodBinds env c i seen js) := by
  induction js generalizing seen with
  | nil => exact .pure _
  | cons j js ih =>
    have ih (seen : List String) := ih seen fun j hj => h j (List.mem_cons_of_mem _ hj)
    unfold methodBinds
    split
    · exact .bind (.report rfl _) fun _ => ih _
    split
    · exact .bind (.report rfl _) fun _ => ih _
    · refine .bind (.localName _ _) fun n => ?_
      refine .bind (closes_checkSigned henv hlocals _ (h j (List.mem_cons_self ..))) fun b => ?_
      exact .bind (ih _) fun r => .pure _

theorem closes_instanceBinds {g : Globals} (hg : ∀ i ∈ g.instances, i.WellFormed)
    (d : Instance × Surface.InstanceDecl) : Closes (instanceBinds g d) := by
  let env : Env := { globals := g }
  have henv : env.Reducing := hg
  unfold instanceBinds
  split
  · refine .bind (closes_methodBinds henv rfl _ _ _ fun j hj => ?_) fun r => ?_
    · obtain ⟨b, -, rfl⟩ := List.mem_map.1 hj
      exact conserving_funJob b
    · exact .bind (.forM fun m _ => .reportIf _ rfl _) fun _ => .pure _
  · exact .pure _

theorem closes_binds {once : Prop} {is : List Instance} {d : Declaring}
    (hd : d.WellFormed once is) (instances : List (Instance × Surface.InstanceDecl))
    (m : Surface.Module) : Closes (binds d instances m) := by
  refine .bind_of (closes_topGroups hd fun g hg j hj => ?_)
    (returns_topGroups (fun _ ids hd => hd.addIdents ids) hd _) fun r hr => ?_
  · obtain ⟨y, hy, rfl⟩ := Surface.mem_of_mem_groupsOf hg hj
    exact conserving_jobs _ y hy
  · exact .bind (.mapM fun i _ => closes_instanceBinds hr.globals.instances i) fun _ => .pure _

variable {m : Surface.Module} {imports : List Exports}

/-- Nothing on constraints is reported before bindings are checked. -/
theorem balanced_declared (hi : ∀ x ∈ imports, x.WellFormed True) :
    Balanced [] { reports := (declared m imports).2.reports } := by
  obtain ⟨hd, -, -⟩ := sound_declared (m := m) hi
  have hnone : (declared m imports).2.reports.filter (·.ofConstraint) = [] := by
    refine List.filter_eq_nil_iff.2 fun r hr hof => ?_
    rw [Report.ofConstraint, hd.constraints r hr] at hof
    cases hof
  refine ⟨⟨[], .refl _, hnone ▸ .nil⟩, ?_, .nil, ?_, ?_, ?_⟩ <;> simp

theorem balanced_elaborate (hi : ∀ x ∈ imports, x.WellFormed True) :
    Balanced [] (elaborate m imports).state ∧ (elaborate m imports).state.wanted = [] := by
  obtain ⟨hd, -, -⟩ := sound_declared (m := m) hi
  let start : State := { reports := (declared m imports).2.reports }
  have hstart : Balanced [] start := balanced_declared hi
  have hwell : (declared m imports).2.WellFormed (ClassesOnce m)
    (declared m imports).2.globals.instances := ⟨hd.globals, hd.exports, rfl⟩
  have hcloses := closes_binds hwell (declared m imports).1 m
  exact ⟨hcloses.conserves [] start hstart, hcloses.wanted start⟩

/-- Of reports that are no errors, those on constraints are the ones with the code of ambiguity. -/
theorem ambiguous_of_ofConstraint {r : Report} (hr : r.isError = false) :
    (r.diagnostic.code == some "W-AMBIGUOUS") = r.ofConstraint := by
  obtain ⟨p, l⟩ := r
  cases p <;> first | rfl | cases hr

/-- A warning is on the constraint `w`, and it is at the occurrence that raised it. -/
def State.Warns (s : State) (w : Wanted) (d : Diagnostic) : Prop :=
  s.Raised w ∧ ∃ p, d = (⟨.ambiguousType p w.use, w.loc⟩ : Report).diagnostic ∧
    s.subst.applyPred p = s.subst.applyPred w.pred

theorem State.Subject.warns {s : State} {w : Wanted} {r : Report} (h : s.Subject w r)
    (hr : r.isError = false) : s.Warns w r.diagnostic := by
  obtain ⟨hraised, hloc, p, hp, hsame⟩ := h
  obtain ⟨problem, loc⟩ := r
  cases problem with
  | ambiguousType q use =>
    cases hp
    cases hloc
    exact ⟨hraised, p, rfl, hsame⟩
  | noInstance | cannotDeduce => cases hr
  | _ => cases hp

/-- When a module is accepted, no constraint waits any more. Each hole that was made either has a
solution or is the subject of one warning of ambiguity, at the occurrence that raised it. If there
are no such warnings, all dictionaries in the tree are complete. -/
theorem holes_conserved {checked : Checked} (hi : ∀ x ∈ imports, Compiled x)
    (hm : module m imports = .ok checked) :
    let s := (elaborate m imports).state
    s.wanted = [] ∧
    (∃ opened : List Wanted,
      (s.solutions.map Prod.fst ++ opened.map (·.hole)).Perm (List.range s.holes) ∧
      List.Forall₂ s.Warns opened
        (checked.warnings.filter (·.code == some "W-AMBIGUOUS"))) ∧
    ((∀ d ∈ checked.warnings, d.code ≠ some "W-AMBIGUOUS") →
      ∀ e ∈ Typed.exprsOf (Typed.Bind.nodesOf checked.binds), Hole.allComplete e.dicts) := by
  intro s
  obtain ⟨hno, -⟩ := of_module_eq_ok hm
  obtain ⟨hbalanced, hwanted⟩ := balanced_elaborate (m := m) fun x hx => (hi x hx).wellFormed
  obtain ⟨opened, hperm, hsubject⟩ := hbalanced.holes
  rw [List.nil_append, hwanted, List.map_nil, List.append_nil] at hperm
  have hwarnings : checked.warnings.filter (·.code == some "W-AMBIGUOUS") =
      ((s.reports.filter (·.ofConstraint)).map Report.diagnostic).reverse := by
    have hall : checked.warnings = s.reports.reverse.map Report.diagnostic :=
      congrArg Checked.warnings (eq_of_module_eq_ok hm)
    rw [hall, List.filter_map, List.filter_reverse, List.map_reverse]
    refine congrArg (fun rs => (List.map Report.diagnostic rs).reverse) ?_
    exact List.filter_congr fun r hr => ambiguous_of_ofConstraint (hno r hr)
  have hwarns : List.Forall₂ s.Warns opened.reverse
      (checked.warnings.filter (·.code == some "W-AMBIGUOUS")) := by
    rw [hwarnings, List.forall₂_reverse_iff, List.forall₂_map_right_iff]
    have hall : ∀ r ∈ s.reports.filter (·.ofConstraint), r.isError = false :=
      fun r hr => hno r (List.mem_of_mem_filter hr)
    exact ((List.forall₂_and_left _ _).2 ⟨hall, hsubject.flip⟩).flip.imp
      fun w r h => State.Subject.warns h.2 h.1
  refine ⟨hwanted, ⟨opened.reverse, ?_, hwarns⟩, fun hnone e he => ?_⟩
  · rw [List.map_reverse]
    exact ((List.reverse_perm _).append_left _).trans hperm
  · have hempty : checked.warnings.filter (·.code == some "W-AMBIGUOUS") = [] :=
      List.filter_eq_nil_iff.2 fun d hd hcode => hnone d hd (beq_iff_eq.1 hcode)
    rw [hempty, List.forall₂_nil_right_iff, List.reverse_eq_nil_iff] at hwarns
    rw [hwarns, List.map_nil, List.append_nil] at hperm
    have hsolved {v : Nat} (hv : v < s.holes) : v ∈ s.solutions.map Prod.fst :=
      hperm.mem_iff.2 (List.mem_range.2 hv)
    rcases noted_of_module_eq_ok hm e he with ⟨p, hp, rfl⟩ | ⟨h, rfl⟩
    · rw [Typed.dicts_expr]
      refine Hole.allComplete_iff.2 fun h hh => ?_
      obtain ⟨d, hd, rfl⟩ := List.mem_map.1 hh
      obtain ⟨v, q, rfl, hlt⟩ := hbalanced.noted p hp d hd
      have hargs : ∀ p ∈ s.solutions, ∀ d ∈ p.2.args,
          ∃ v q, d = .unsolved v q ∧ v ≠ p.1 ∧ v ∈ s.solutions.map Prod.fst := by
        intro p hp d hd
        obtain ⟨v, q, rfl, hne, hlt⟩ := hbalanced.args p hp d hd
        exact ⟨v, q, rfl, hne, hsolved hlt⟩
      obtain ⟨e, hget, hcomplete⟩ := @Typed.complete_of_ordered s.subst s.solutions
        (hperm.nodup_iff.2 List.nodup_range) hbalanced.ordered hargs v (hsolved hlt)
      have hhole : (elaborate m imports).answers.hole (.unsolved v q) =
          .solved ((elaborate m imports).answers.pred q) e := by
        rw [Typed.Answers.hole, Elaboration.answers, hget]
      rw [hhole]
      exact hcomplete
    · rfl

/-- In `f x = let { y = s (x 1) } in x 1`, the hole of `s` is the subject of the only warning. -/
theorem holes_conserved_of_classModule :
    let arg : Surface.Expr := .app (.var "x" .unknown) (.lit (.int 1) .unknown) .unknown
    let m := classModule [.bind (function "f" "x" (.letIn [constrained arg] arg .unknown))]
    let s := (elaborate m []).state
    let checked := (run m []).checked
    module m [] = .ok checked ∧ s.holes = 1 ∧ s.wanted = [] ∧
    ∃ opened : List Wanted,
      (s.solutions.map Prod.fst ++ opened.map (·.hole)).Perm (List.range s.holes) ∧
      List.Forall₂ s.Warns opened
        (checked.warnings.filter (·.code == some "W-AMBIGUOUS")) := by
  intro arg m s checked
  have hm : module m [] = .ok checked := module_eq_ok (by decide +kernel)
  obtain ⟨hwanted, hopened, -⟩ := holes_conserved (by simp) hm
  exact ⟨hm, by decide +kernel, hwanted, hopened⟩

end Check

end TypeLens
