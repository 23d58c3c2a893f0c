import TypeLens.Proofs.Checking.Constraints
import TypeLens.Proofs.Checking.Exports
import TypeLens.Proofs.Typed.Evidence

/-!
Solving as a work list that grows while it is consumed. It comes to an end, the evidence that it
leaves is complete where it reports and defers nothing, and what it reports can be read off what the
constraints reduce to.
-/

namespace TypeLens.Check

open Typed (Answers DictVar Evidence Hole)

/-- The loop over a work list: the first constraint goes, and what it is reduced to goes last. -/
inductive Drains (env : Env) (sc : Scoping) : Solved → List Wanted → State → Solved × State → Prop
  | done {acc : Solved} {s : State} : Drains env sc acc [] s (acc, s)
  | next {acc : Solved} {w : Wanted} {ws : List Wanted} {s : State} {x : Solved × State}
      (h : Drains env sc ((solveOne env sc acc w).run s).1.1
        (ws ++ ((solveOne env sc acc w).run s).1.2) ((solveOne env sc acc w).run s).2 x) :
      Drains env sc acc (w :: ws) s x

/-- The evidence for a constraint `p` that its fate means, with the constraints that it needs. -/
inductive Finds (params : Table (Name × UVar) DictVar) (p : Pred) :
    List Wanted → Fate → Option Evidence → Prop
  | reduced {x : InstanceEnv.Match} {goals : List Wanted} (h : goals.map (·.pred) = x.context) :
    Finds params p goals (.reduced x) (some (.byInstance x.inst x.typeArgs
      (goals.map fun g => .unsolved g.hole g.pred)))
  | given {d : DictVar} : Finds params p [] (.given d) (some (.byParam d))
  | parameter {m : UVar} {d : DictVar} (h : ((p.cls, m), d) ∈ params) :
    Finds params p [] (.parameter m) (some (.byParam d))
  | deferred : Finds params p [] .deferred none
  | noInstance : Finds params p [] .noInstance none
  | cannotDeduce : Finds params p [] .cannotDeduce none
  | ambiguous : Finds params p [] .ambiguous none

/-- The solution that one constraint gets, and the holes for those that it is reduced to. -/
structure SolveStep (σ : Subst) (fate : Fate) (acc : Solved) (w : Wanted) (s : State)
    (r : Solved × List Wanted) (s' : State) : Prop where
  image? : s'.subst.image? = σ.image?
  holes : s'.holes = s.holes + r.2.length
  goals : r.2.map (·.hole) = List.range' s.holes r.2.length
  solutions : ∃ e, Finds r.1.params (σ.applyPred w.pred) r.2 fate e ∧
    s'.solutions = (e.map (w.hole, ·)).toList ++ s.solutions
  params : acc.params ⊆ r.1.params
  typed : (∀ p ∈ acc.params, p.2.pred = ⟨p.1.1, .uvar p.1.2⟩) →
    ∀ p ∈ r.1.params, p.2.pred = ⟨p.1.1, .uvar p.1.2⟩

section

variable {env : Env} {sc : Scoping} {σ : Subst}

theorem run_zonkPred {s : State} (hs : s.subst.image? = σ.image?) (p : Pred) :
    (zonkPred p).run s = pure (σ.applyPred p, { s with subst := (s.subst.zonk p.arg).2 }) := by
  have hsame : s.subst.apply p.arg = σ.apply p.arg := congrArg p.arg.substUvars hs
  have hfst : ((zonkPred p).run s).1 = σ.applyPred p :=
    congrArg (Pred.mk p.cls) ((s.subst.zonk_fst p.arg).trans hsame)
  exact Prod.ext hfst rfl

theorem run_wantedFor (loc : Span) (use : String) (ps : List Pred) (s : State) :
    ∃ ws, (wantedFor loc use ps).run s = pure (ws, { s with holes := s.holes + ps.length }) ∧
      ws.map (·.pred) = ps ∧ ws.map (·.hole) = List.range' s.holes ps.length ∧
      ∀ w ∈ ws, w.loc = loc := by
  induction ps generalizing s with
  | nil => exact ⟨[], rfl, rfl, rfl, by simp⟩
  | cons p ps ih =>
    obtain ⟨ws, hrun, hpreds, hholes, hloc⟩ := ih { s with holes := s.holes + 1 }
    refine ⟨⟨p, s.holes, loc, use⟩ :: ws, ?_, ?_, ?_, List.forall_mem_cons.2 ⟨rfl, hloc⟩⟩
    · have hadd : s.holes + 1 + ps.length = s.holes + (p :: ps).length := by
        rw [List.length_cons]
        omega
      rw [wantedFor, StateT.run_bind]
      change (wantedFor loc use ps >>= _).run { s with holes := s.holes + 1 } = _
      rw [StateT.run_bind, hrun, ← hadd]
      rfl
    · rw [List.map_cons, hpreds]
    · rw [List.map_cons, hholes, List.length_cons, List.range'_succ]

theorem step_solveOne {s : State} (hs : s.subst.image? = σ.image?) (acc : Solved) (w : Wanted) :
    SolveStep σ (env.fate sc σ (w.goal σ)) acc w s ((solveOne env sc acc w).run s).1
      ((solveOne env sc acc w).run s).2 := by
  have hs' : (s.subst.zonk w.pred.arg).2.image? = σ.image? :=
    (s.subst.image?_zonk w.pred.arg).trans hs
  have hfate : sc.fate (s.subst.zonk w.pred.arg).2 env.globals.instanceEnv env.givens
    (σ.applyPred w.pred) = env.fate sc σ (w.goal σ) := fate_congr hs' _ _ _
  unfold solveOne
  simp only [StateT.run_bind, run_zonkPred hs, StateT.run_get, pure_bind]
  rw [hfate]
  generalize h : env.fate sc σ (w.goal σ) = fate
  cases fate with
  | reduced x =>
    dsimp only
    rw [StateT.run_bind]
    obtain ⟨goals, hrun, hpreds, hholes, -⟩ :=
      run_wantedFor w.loc w.use x.context { s with subst := (s.subst.zonk w.pred.arg).2 }
    have hlen : x.context.length = goals.length := by rw [← hpreds, List.length_map]
    rw [hrun, pure_bind, hlen]
    rw [hlen] at hholes
    exact ⟨hs', rfl, hholes, ⟨_, .reduced hpreds, rfl⟩, fun _ hp => hp, fun hp => hp⟩
  | given d => exact ⟨hs', rfl, rfl, ⟨_, .given, rfl⟩, fun _ hp => hp, fun hp => hp⟩
  | parameter m =>
    obtain ⟨-, harg⟩ := fate_eq_parameter h
    have hpred : σ.applyPred w.pred = ⟨(σ.applyPred w.pred).cls, .uvar m⟩ :=
      congrArg (Pred.mk _) harg
    dsimp only
    cases hd : acc.params.get? ((σ.applyPred w.pred).cls, m) with
    | some d =>
      exact ⟨hs', rfl, rfl, ⟨_, .parameter (Table.mem_of_get? hd), rfl⟩, fun _ hp => hp,
        fun hp => hp⟩
    | none =>
      have hsubset (d : DictVar) :
          acc.params ⊆ acc.params.put ((σ.applyPred w.pred).cls, m) d := fun p hp => by
        rw [Table.put_of_none hd]
        exact List.mem_append_left _ hp
      exact ⟨hs', rfl, rfl, ⟨_, .parameter (Table.mem_of_get? (Table.get?_put_self ..)), rfl⟩,
        hsubset _, fun htyped => Table.forall_mem_put htyped hpred⟩
  | deferred => exact ⟨hs', rfl, rfl, ⟨_, .deferred, rfl⟩, fun _ hp => hp, fun hp => hp⟩
  | noInstance => exact ⟨hs', rfl, rfl, ⟨_, .noInstance, rfl⟩, fun _ hp => hp, fun hp => hp⟩
  | cannotDeduce =>
    exact ⟨hs', rfl, rfl, ⟨_, .cannotDeduce, rfl⟩, fun _ hp => hp, fun hp => hp⟩
  | ambiguous => exact ⟨hs', rfl, rfl, ⟨_, .ambiguous, rfl⟩, fun _ hp => hp, fun hp => hp⟩

/-- The holes of constraints are their own; they have no solution yet, and no hole will be numbered
like one that exists. -/
structure State.Owns (s : State) (ws : List Wanted) : Prop where
  nodup : (ws.map (·.hole)).Nodup
  below : ∀ w ∈ ws, w.hole < s.holes
  unsolved : ∀ w ∈ ws, w.hole ∉ s.solutions.map Prod.fst
  solved : ∀ v ∈ s.solutions.map Prod.fst, v < s.holes

theorem SolveStep.owns {fate : Fate} {acc : Solved} {w : Wanted} {ws : List Wanted} {s s' : State}
    {r : Solved × List Wanted} (h : SolveStep σ fate acc w s r s') (hs : s.Owns (w :: ws)) :
    s'.Owns (ws ++ r.2) := by
  obtain ⟨e, -, hsolutions⟩ := h.solutions
  obtain ⟨hw, hnodup⟩ := List.nodup_cons.1 hs.nodup
  have hnew {v : Nat} : v ∈ r.2.map (·.hole) ↔ s.holes ≤ v ∧ v < s'.holes := by
    rw [h.goals, List.mem_range'_1, h.holes]
  have hkeys {v : Nat} (hv : v ∈ s'.solutions.map Prod.fst) :
      v = w.hole ∨ v ∈ s.solutions.map Prod.fst := by
    rw [hsolutions, List.map_append, List.mem_append] at hv
    refine hv.imp_left fun hv => ?_
    cases e with
    | none => cases hv
    | some e => exact List.mem_singleton.1 hv
  have hle : s.holes ≤ s'.holes := h.holes ▸ Nat.le_add_right ..
  have hbelow {v : Nat} (hv : v ∈ s'.solutions.map Prod.fst) : v < s.holes := by
    rcases hkeys hv with rfl | hv
    · exact hs.below w (List.mem_cons_self ..)
    · exact hs.solved v hv
  refine ⟨?_, ?_, ?_, fun v hv => Nat.lt_of_lt_of_le (hbelow hv) hle⟩
  · rw [List.map_append]
    refine List.nodup_append.2 ⟨hnodup, h.goals ▸ List.nodup_range', fun a ha b hb hab => ?_⟩
    obtain ⟨w', hw', rfl⟩ := List.mem_map.1 ha
    have hlt := hs.below w' (List.mem_cons_of_mem _ hw')
    have hge := (hnew.1 (hab ▸ hb)).1
    omega
  · intro w' hw'
    rcases List.mem_append.1 hw' with hw' | hw'
    · exact Nat.lt_of_lt_of_le (hs.below w' (List.mem_cons_of_mem _ hw')) hle
    · exact (hnew.1 (List.mem_map_of_mem hw')).2
  · intro w' hw' hmem
    rcases List.mem_append.1 hw' with hw' | hw'
    · rcases hkeys hmem with heq | hmem
      · exact hw (List.mem_map.2 ⟨w', hw', heq⟩)
      · exact hs.unsolved w' (List.mem_cons_of_mem _ hw') hmem
    · have hlt := hbelow hmem
      have hge := (hnew.1 (List.mem_map_of_mem hw')).1
      omega

-- The loop

theorem Drains.unique {acc : Solved} {ws : List Wanted} {s : State} {x y : Solved × State}
    (hx : Drains env sc acc ws s x) (hy : Drains env sc acc ws s y) : x = y := by
  induction hx with
  | done =>
    cases hy
    rfl
  | next _ ih =>
    cases hy with
    | next hy => exact ih hy

theorem drains_solveRound {acc : Solved} {ws qs : List Wanted} {s : State} {x : Solved × State}
    (h : Drains env sc ((solveRound env sc acc ws).run s).1.1
      (qs ++ ((solveRound env sc acc ws).run s).1.2) ((solveRound env sc acc ws).run s).2 x) :
    Drains env sc acc (ws ++ qs) s x := by
  induction ws generalizing acc qs s with
  | nil =>
    have hqs : qs ++ ((solveRound env sc acc []).run s).1.2 = qs := List.append_nil qs
    rw [hqs] at h
    exact h
  | cons w ws ih =>
    rw [List.cons_append]
    refine .next ?_
    rw [List.append_assoc]
    refine ih ?_
    rw [List.append_assoc]
    exact h

/-- The rounds of the solver empty the work list. -/
theorem drains_solveRounds (his : ∀ i ∈ env.globals.instances, i.WellFormed) (n : Nat) {s : State}
    (hs : s.subst.image? = σ.image?) (acc : Solved) (ws : List Wanted)
    (hn : ∀ w ∈ ws, (w.goal σ).Within env.globals.instanceEnv n) :
    Drains env sc acc ws s ((solveRounds env sc n acc ws).run s) := by
  induction n generalizing acc ws s with
  | zero =>
    have hws : ws = [] := List.eq_nil_iff_forall_not_mem.2 fun w hw =>
      absurd (hn w hw).1 (Nat.lt_irrefl 0)
    subst hws
    exact .done
  | succ n ih =>
    obtain ⟨hs', -, -, -, -, -, hgoals⟩ := @adds_solveRound env sc σ acc ws s hs
    have hnext : ∀ w ∈ ((solveRound env sc acc ws).run s).1.2,
        (w.goal σ).Within env.globals.instanceEnv n := by
      intro w hw
      have hmem : w.goal σ ∈ ws.flatMap fun w => (w.goal σ).premises σ env.globals.instanceEnv :=
        hgoals ▸ List.mem_map_of_mem hw
      obtain ⟨w', hw', hp⟩ := List.mem_flatMap.1 hmem
      exact within_of_mem_premises his (hn w' hw') hp
    have hrest := ih hs' ((solveRound env sc acc ws).run s).1.1 _ hnext
    have hround : Drains env sc acc (ws ++ []) s ((solveRounds env sc (n + 1) acc ws).run s) :=
      drains_solveRound hrest
    rw [List.append_nil] at hround
    exact hround

/-- What the loop has done before it ends stays. -/
theorem Drains.later {acc : Solved} {ws : List Wanted} {s : State} {x : Solved × State}
    (h : Drains env sc acc ws s x) (hs : s.subst.image? = σ.image?) :
    acc.params ⊆ x.1.params ∧ x.2.subst.image? = σ.image? ∧
      ∃ later, x.2.solutions = later ++ s.solutions := by
  induction h with
  | done => exact ⟨fun _ hp => hp, hs, [], rfl⟩
  | @next acc w ws s x _ ih =>
    have hstep := @step_solveOne env sc σ s hs acc w
    obtain ⟨hparams, hs', later, hlater⟩ := ih hstep.image?
    obtain ⟨e, -, hsolutions⟩ := hstep.solutions
    refine ⟨fun _ hp => hparams (hstep.params hp), hs', later ++ (e.map (w.hole, ·)).toList, ?_⟩
    rw [hlater, hsolutions, List.append_assoc]

-- Evidence

mutual

/-- Evidence without holes for a constraint: each instance is the one of the constraint's class and
head, with evidence for all of its context, and each dictionary is one of `ds` for just this
constraint. -/
inductive Derives (σ : Subst) (is : InstanceEnv) (ds : List DictVar) : Pred → Evidence → Prop
  | byInstance {p : Pred} {c : Name} {ts : List Ty} {i : Instance} {hs : List Hole}
      (harg : p.arg = .conApp c ts) (hi : is.find? p.cls c = some i)
      (h : DerivesAll σ is ds
        (i.context.map fun q => σ.applyPred (q.substVars (assign i.tyvars ts))) hs) :
      Derives σ is ds p (.byInstance i ts hs)
  | byParam {p : Pred} {d : DictVar} (hd : d ∈ ds) (h : σ.applyPred d.pred = p) :
      Derives σ is ds p (.byParam ⟨d.name, p⟩)

inductive DerivesAll (σ : Subst) (is : InstanceEnv) (ds : List DictVar) :
    List Pred → List Hole → Prop
  | nil : DerivesAll σ is ds [] []
  | cons {p : Pred} {ps : List Pred} {e : Evidence} {hs : List Hole} (hp : Derives σ is ds p e)
      (h : DerivesAll σ is ds ps hs) : DerivesAll σ is ds (p :: ps) (.solved p e :: hs)

end

/-- The constraint has evidence, if all that it is reduced to has. -/
def Fate.isSolved : Fate → Bool
  | .reduced _ | .given _ | .parameter _ => true
  | .deferred | .noInstance | .cannotDeduce | .ambiguous => false

theorem Finds.exists_of_isSolved {params : Table (Name × UVar) DictVar} {p : Pred}
    {goals : List Wanted} {fate : Fate} {e : Option Evidence} (h : Finds params p goals fate e)
    (hsolved : fate.isSolved) : ∃ e', e = some e' := by
  cases h with
  | reduced | given | parameter => exact ⟨_, rfl⟩
  | deferred | noInstance | cannotDeduce | ambiguous => cases hsolved

/-- Solving a constraint leaves nothing open. -/
def Env.Settles (env : Env) (sc : Scoping) (σ : Subst) (w : Wanted) : Prop :=
  ∀ q, Reached σ env.globals.instanceEnv [w] q → (env.fate sc σ q).isSolved

theorem Reached.mono {is : InstanceEnv} {ws ws' : List Wanted} (h : ws ⊆ ws') {q : Goal}
    (hq : Reached σ is ws q) : Reached σ is ws' q := by
  induction hq with
  | raised hw => exact .raised (h hw)
  | premise _ hp ih => exact .premise ih hp

theorem Env.Settles.of_mem {w g : Wanted} {goals : List Wanted} (h : env.Settles sc σ w)
    (hgoals : goals.map (·.goal σ) = (w.goal σ).premises σ env.globals.instanceEnv)
    (hg : g ∈ goals) : env.Settles sc σ g := by
  intro q hq
  have hone : goals.map (·.goal σ) =
      [w].flatMap fun w => (w.goal σ).premises σ env.globals.instanceEnv := by
    rw [hgoals, List.flatMap_singleton]
  exact h q ((reached_iff hone).2 (.inr (hq.mono (by simpa using hg))))

theorem findGiven_eq_some {givens : List DictVar} {p : Pred} {d : DictVar}
    (h : findGiven σ givens p = some d) : d ∈ givens ∧ σ.applyPred d.pred = p := by
  refine ⟨List.mem_reverse.1 (List.mem_of_find?_eq_some h), ?_⟩
  simpa using List.find?_some h

theorem fate_eq_given {givens : List DictVar} {is : InstanceEnv} {p : Pred} {d : DictVar}
    (h : sc.fate σ is givens p = .given d) : d ∈ givens ∧ σ.applyPred d.pred = p := by
  unfold Scoping.fate at h
  split at h
  · split at h
    · next hd =>
      cases h
      exact findGiven_eq_some hd
    · cases h
  · split at h
    · cases h
    · split at h <;> cases h
  · split at h <;> cases h

theorem derivesAll_map {is : InstanceEnv} {ds : List DictVar} {a : Answers} {goals : List Wanted}
    (ha : ∀ p, a.pred p = σ.applyPred p)
    (h : ∀ g ∈ goals, ∃ e, a.evidence.get? g.hole = some e ∧
      Derives σ is ds (σ.applyPred g.pred) e) :
    DerivesAll σ is ds (goals.map fun g => σ.applyPred g.pred)
      ((goals.map fun g => Hole.unsolved g.hole g.pred).map a.hole) := by
  induction goals with
  | nil => exact .nil
  | cons g goals ih =>
    obtain ⟨⟨e, he, hderives⟩, hrest⟩ := List.forall_mem_cons.1 h
    have hhole : a.hole (.unsolved g.hole g.pred) = .solved (σ.applyPred g.pred) e := by
      rw [Answers.hole, he, ha]
    rw [List.map_cons, List.map_cons, List.map_cons, hhole]
    exact .cons hderives (ih hrest)

/-- A constraint gets complete evidence if those that it is reduced to do. -/
theorem Finds.derives {params : Table (Name × UVar) DictVar} {w : Wanted} {goals : List Wanted}
    {e : Evidence} {a : Answers} {ds : List DictVar}
    (he : Finds params (σ.applyPred w.pred) goals (env.fate sc σ (w.goal σ)) (some e))
    (hparams : ∀ p ∈ params, p.2.pred = ⟨p.1.1, .uvar p.1.2⟩)
    (hds : env.givens ++ params.values ⊆ ds) (ha : a.images.image? = σ.image?)
    (hgoals : ∀ g ∈ goals, ∃ e, a.evidence.get? g.hole = some e ∧
      Derives σ env.globals.instanceEnv ds (σ.applyPred g.pred) e) :
    Derives σ env.globals.instanceEnv ds (σ.applyPred w.pred) (a.evidenceOf e) := by
  have hpred (p : Pred) : a.pred p = σ.applyPred p := congrArg p.substUvars ha
  generalize h : env.fate sc σ (w.goal σ) = fate at he
  cases he with
  | @reduced x goals hx =>
    obtain ⟨⟨head, harg, hi⟩, hcontext⟩ :=
      InstanceEnv.match?_eq_some (match?_of_fate_eq_reduced h)
    have hargs : x.typeArgs.map a.ty = x.typeArgs := by
      have hself : ∀ t ∈ x.typeArgs, a.ty t = id t := fun t ht =>
        (congrArg t.substUvars ha).trans (apply_of_mem_typeArgs harg ht)
      rw [List.map_congr_left hself, List.map_id]
    have hall : goals.map (fun g => σ.applyPred g.pred) = x.inst.context.map fun q =>
        σ.applyPred (q.substVars (assign x.inst.tyvars x.typeArgs)) := by
      have hmap := congrArg (List.map σ.applyPred) (hx.trans hcontext)
      rw [List.map_map, List.map_map] at hmap
      exact hmap
    rw [Answers.evidenceOf, hargs]
    exact .byInstance (Ty.eq_conApp_of_unconApp? harg) hi (hall ▸ derivesAll_map hpred hgoals)
  | @given d =>
    obtain ⟨hd, heq⟩ := fate_eq_given h
    have hvar : a.dictVar d = ⟨d.name, σ.applyPred w.pred⟩ := by
      rw [Answers.dictVar, hpred]
      exact congrArg (DictVar.mk d.name) heq
    rw [Answers.evidenceOf, hvar]
    exact .byParam (hds (List.mem_append_left _ hd)) heq
  | @parameter m d hd =>
    obtain ⟨-, harg⟩ := fate_eq_parameter h
    have hpar : d.pred = σ.applyPred w.pred :=
      (hparams _ hd).trans (congrArg (Pred.mk _) harg.symm)
    have heq : σ.applyPred d.pred = σ.applyPred w.pred := by
      rw [hpar, applyPred_applyPred (.refl σ)]
    have hvar : a.dictVar d = ⟨d.name, σ.applyPred w.pred⟩ := by
      rw [Answers.dictVar, hpred, heq]
    rw [Answers.evidenceOf, hvar]
    exact .byParam (hds (List.mem_append_right _ (List.mem_map_of_mem hd))) heq

/-- Constraints that are settled have complete evidence in the end. -/
theorem Drains.evidence {acc : Solved} {ws : List Wanted} {s : State} {x : Solved × State}
    (h : Drains env sc acc ws s x) (hs : s.subst.image? = σ.image?) (howns : s.Owns ws)
    (hparams : ∀ p ∈ acc.params, p.2.pred = ⟨p.1.1, .uvar p.1.2⟩) {σ' : Subst}
    (hσ' : σ'.image? = σ.image?) {w : Wanted} (hw : w ∈ ws) (hsettles : env.Settles sc σ w) :
    ∃ e, (Answers.ofSolutions σ' x.2.solutions).evidence.get? w.hole = some e ∧
      Derives σ env.globals.instanceEnv (env.givens ++ x.1.params.values) (σ.applyPred w.pred) e := by
  induction h generalizing w with
  | done => cases hw
  | @next acc w₀ ws s x h ih =>
    have hstep := @step_solveOne env sc σ s hs acc w₀
    obtain ⟨-, -, -, -, -, -, hgoals⟩ := @adds_solveOne env sc σ acc w₀ s hs
    have howns' := hstep.owns howns
    have hparams' := hstep.typed hparams
    obtain ⟨hle, -, later, hlater⟩ := h.later hstep.image?
    rcases List.mem_cons.1 hw with rfl | hw
    swap
    · exact ih hstep.image? howns' hparams' (List.mem_append_left _ hw) hsettles
    obtain ⟨e, he, hsolutions⟩ := hstep.solutions
    -- Its own fate is among those that leave nothing open, so there is evidence.
    have hsolved := hsettles _ (.raised (List.mem_singleton_self w))
    obtain ⟨e, rfl⟩ := he.exists_of_isSolved hsolved
    have hcons : ((solveOne env sc acc w).run s).2.solutions = (w.hole, e) :: s.solutions :=
      hsolutions
    rw [hcons] at hlater
    rw [hlater]
    have hunsolved := howns.unsolved w (List.mem_cons_self ..)
    refine ⟨_, Typed.get?_ofSolutions hunsolved later, ?_⟩
    refine he.derives hparams' ?_ (by rw [Typed.images_ofSolutions, hσ']) fun g hg => ?_
    · intro d hd
      refine List.mem_append.2 ((List.mem_append.1 hd).imp_right fun hd => ?_)
      obtain ⟨p, hp, rfl⟩ := List.mem_map.1 hd
      exact List.mem_map_of_mem (hle hp)
    · obtain ⟨e', he', hderives⟩ := ih hstep.image? howns' hparams' (List.mem_append_right _ hg)
        (hsettles.of_mem hgoals hg)
      have hnot := howns'.unsolved g (List.mem_append_right _ hg)
      rw [hcons] at hnot
      rw [hlater, Typed.get?_ofSolutions_append hnot] at he'
      exact ⟨e', he', hderives⟩

-- Reports

/-- The constraints that one is reduced to in at most `n` steps, with repetitions. -/
def Goal.reducedIn (σ : Subst) (is : InstanceEnv) : Nat → Goal → List Goal
  | 0, _ => []
  | n + 1, q => q :: (q.premises σ is).flatMap (reducedIn σ is n)

/-- All constraints that one is reduced to. -/
def Goal.reduction (σ : Subst) (is : InstanceEnv) (q : Goal) : List Goal :=
  q.reducedIn σ is (q.pred.arg.size + 1)

/-- The reports on the constraints that one is reduced to. -/
def Env.reportsOn (env : Env) (sc : Scoping) (σ : Subst) (w : Wanted) : List Report :=
  ((w.goal σ).reduction σ env.globals.instanceEnv).filterMap (env.report? sc σ)

theorem mem_premises {is : InstanceEnv} {q p : Goal} (h : p ∈ q.premises σ is) :
    ∃ w : Wanted, w.goal σ = p := by
  unfold Goal.premises at h
  split at h
  · obtain ⟨r, -, rfl⟩ := List.mem_map.1 h
    exact ⟨⟨r, 0, q.loc, q.use⟩, rfl⟩
  · cases h

theorem Goal.Within.of_size_lt {is : InstanceEnv} {q : Goal} {n : Nat} (h : q.pred.arg.size < n) :
    q.Within is n := ⟨by omega, .inl h⟩

/-- More steps do not lead to more constraints. -/
theorem reducedIn_eq {is : List Instance} (his : ∀ i ∈ is, i.WellFormed) {n k : Nat} {w : Wanted}
    (hn : (w.goal σ).Within (.ofList is) n) (hk : (w.goal σ).Within (.ofList is) k) :
    (w.goal σ).reducedIn σ (.ofList is) n = (w.goal σ).reducedIn σ (.ofList is) k := by
  induction n generalizing k w with
  | zero => exact absurd hn.1 (Nat.lt_irrefl 0)
  | succ n ih =>
    obtain ⟨k, rfl⟩ := Nat.exists_eq_add_one_of_ne_zero (Nat.ne_of_gt hk.1)
    have hrest : ∀ p ∈ (w.goal σ).premises σ (.ofList is),
        p.reducedIn σ (.ofList is) n = p.reducedIn σ (.ofList is) k := by
      intro p hp
      obtain ⟨v, rfl⟩ := mem_premises hp
      exact ih (within_of_mem_premises his hn hp) (within_of_mem_premises his hk hp)
    rw [Goal.reducedIn, Goal.reducedIn, List.flatMap_congr hrest]

theorem reduction_eq {is : List Instance} (his : ∀ i ∈ is, i.WellFormed) (w : Wanted) :
    (w.goal σ).reduction σ (.ofList is) = w.goal σ ::
      ((w.goal σ).premises σ (.ofList is)).flatMap (Goal.reduction σ (.ofList is)) := by
  have hrest : ∀ p ∈ (w.goal σ).premises σ (.ofList is),
      p.reducedIn σ (.ofList is) (w.goal σ).pred.arg.size = p.reduction σ (.ofList is) := by
    intro p hp
    obtain ⟨v, rfl⟩ := mem_premises hp
    exact reducedIn_eq his (within_of_mem_premises his (.of_size_lt (Nat.lt_succ_self _)) hp)
      (.of_size_lt (Nat.lt_succ_self _))
  rw [Goal.reduction, Goal.reducedIn, List.flatMap_congr hrest]

/-- The reduction of a constraint has all that its members are reduced to. -/
theorem premises_subset_reduction {is : List Instance} (his : ∀ i ∈ is, i.WellFormed) {n : Nat}
    {w : Wanted} (hn : (w.goal σ).Within (.ofList is) n) {q : Goal}
    (hq : q ∈ (w.goal σ).reduction σ (.ofList is)) :
    q.premises σ (.ofList is) ⊆ (w.goal σ).reduction σ (.ofList is) := by
  induction n generalizing w with
  | zero => exact absurd hn.1 (Nat.lt_irrefl 0)
  | succ n ih =>
    intro p hp
    rw [reduction_eq his] at hq ⊢
    refine List.mem_cons_of_mem _ (List.mem_flatMap.2 ?_)
    rcases List.mem_cons.1 hq with rfl | hq
    · obtain ⟨v, rfl⟩ := mem_premises hp
      refine ⟨_, hp, ?_⟩
      rw [reduction_eq his]
      exact List.mem_cons_self ..
    · obtain ⟨r, hr, hq⟩ := List.mem_flatMap.1 hq
      obtain ⟨v, rfl⟩ := mem_premises hr
      exact ⟨_, hr, ih (within_of_mem_premises his hn hr) hq hp⟩

theorem mem_reduction_iff {is : List Instance} (his : ∀ i ∈ is, i.WellFormed) {w : Wanted}
    {q : Goal} :
    q ∈ (w.goal σ).reduction σ (.ofList is) ↔ Reached σ (.ofList is) [w] q := by
  constructor
  · have hmem {n : Nat} {p : Goal} (hp : Reached σ (.ofList is) [w] p)
        (hq : q ∈ p.reducedIn σ (.ofList is) n) : Reached σ (.ofList is) [w] q := by
      induction n generalizing p with
      | zero => cases hq
      | succ n ih =>
        rcases List.mem_cons.1 hq with rfl | hq
        · exact hp
        · obtain ⟨r, hr, hq⟩ := List.mem_flatMap.1 hq
          exact ih (.premise hp hr) hq
    exact hmem (.raised (List.mem_singleton_self w))
  · intro hq
    induction hq with
    | raised hw =>
      obtain rfl := List.mem_singleton.1 hw
      rw [reduction_eq his]
      exact List.mem_cons_self ..
    | premise _ hp ih =>
      exact premises_subset_reduction his (.of_size_lt (Nat.lt_succ_self _)) ih hp

/-- The reports that the loop makes are those on the reductions of its constraints. -/
theorem Drains.reports (his : ∀ i ∈ env.globals.instances, i.WellFormed) {acc : Solved}
    {ws : List Wanted} {s : State} {x : Solved × State} (h : Drains env sc acc ws s x)
    (hs : s.subst.image? = σ.image?) :
    ∃ new, x.2.reports = new ++ s.reports ∧ new.Perm (ws.flatMap (env.reportsOn sc σ)) := by
  induction h with
  | done => exact ⟨[], rfl, .refl _⟩
  | @next acc w ws s x _ ih =>
    obtain ⟨hs', -, new, hnew, hreports, -, hgoals⟩ :=
      @adds_solveOne env sc σ acc w s hs
    obtain ⟨new', hnew', hperm⟩ := ih hs'
    refine ⟨new' ++ new, by rw [hnew', hnew, List.append_assoc], ?_⟩
    have hw : env.reportsOn sc σ w = new ++ ((solveOne env sc acc w).run s).1.2.flatMap
        (env.reportsOn sc σ) := by
      have hcons : env.reportsOn sc σ w = (env.report? sc σ (w.goal σ)).toList ++
          (((w.goal σ).premises σ env.globals.instanceEnv).flatMap
            (Goal.reduction σ env.globals.instanceEnv)).filterMap (env.report? sc σ) := by
        rw [Env.reportsOn, Globals.instanceEnv, reduction_eq his]
        cases hr : env.report? sc σ (w.goal σ) with
        | none | some => simp [hr]
      rw [hcons, hreports, ← hgoals, List.flatMap_map, List.filterMap_flatMap]
      rfl
    rw [List.flatMap_append] at hperm
    rw [List.flatMap_cons, hw]
    refine (hperm.append_right new).trans ?_
    rw [List.append_assoc]
    exact List.perm_append_comm.trans (List.perm_append_comm.append_right _)

/-- No evidence for a constraint can be found: it is on a constructor without an instance, or on a
rigid variable without a given dictionary. -/
def Env.Fails (env : Env) (σ : Subst) (q : Goal) : Prop :=
  (∃ c ts, q.pred.arg = .conApp c ts ∧ env.globals.instanceEnv.find? q.pred.cls c = none) ∨
    ∃ v, q.pred.arg = .var v ∧ ∀ d ∈ env.givens, σ.applyPred d.pred ≠ q.pred

theorem findGiven_eq_none_iff {givens : List DictVar} {p : Pred} :
    findGiven σ givens p = none ↔ ∀ d ∈ givens, σ.applyPred d.pred ≠ p := by
  rw [findGiven, List.find?_eq_none]
  simp

theorem match?_eq_none_iff {is : InstanceEnv} {p : Pred} {c : Name} {ts : List Ty}
    (h : p.arg.unconApp? = some (c, ts)) : is.match? p = none ↔ is.find? p.cls c = none := by
  rw [InstanceEnv.match?, h]
  cases hi : is.find? p.cls c with
  | none | some => simp [hi]

theorem fate_eq_noInstance_iff {is : InstanceEnv} {givens : List DictVar} {p : Pred} :
    sc.fate σ is givens p = .noInstance ↔
      ∃ c ts, p.arg = .conApp c ts ∧ is.find? p.cls c = none := by
  constructor
  · intro h
    unfold Scoping.fate at h
    split at h
    · split at h <;> cases h
    · split at h
      · cases h
      · split at h <;> cases h
    · split at h
      · cases h
      · next x hx hnone =>
        exact ⟨x.1, x.2, Ty.eq_conApp_of_unconApp? hx, (match?_eq_none_iff hx).1 hnone⟩
      · cases h
  · rintro ⟨c, ts, harg, hnone⟩
    have hun : p.arg.unconApp? = some (c, ts) := harg ▸ Ty.unconApp?_conApp c ts
    have hmatch : is.match? p = none := (match?_eq_none_iff hun).2 hnone
    unfold Scoping.fate
    split
    · next hv =>
      rw [hv] at hun
      cases hun
    · next hv =>
      rw [hv] at hun
      cases hun
    · rw [hun, hmatch]

theorem fate_eq_cannotDeduce_iff {is : InstanceEnv} {givens : List DictVar} {p : Pred} :
    sc.fate σ is givens p = .cannotDeduce ↔
      ∃ v, p.arg = .var v ∧ ∀ d ∈ givens, σ.applyPred d.pred ≠ p := by
  constructor
  · intro h
    unfold Scoping.fate at h
    split at h
    · next v hv =>
      split at h
      · cases h
      · next hnone => exact ⟨v, hv, findGiven_eq_none_iff.1 hnone⟩
    · split at h
      · cases h
      · split at h <;> cases h
    · split at h <;> cases h
  · rintro ⟨v, hv, hnone⟩
    unfold Scoping.fate
    rw [hv, findGiven_eq_none_iff.2 hnone]

/-- The report on a constraint is an error if and only if no evidence for it can be found. -/
theorem report?_isError_iff {q : Goal} :
    (∃ r, env.report? sc σ q = some r ∧ r.isError) ↔ env.Fails σ q := by
  have hfate : (∃ r, env.report? sc σ q = some r ∧ r.isError) ↔
      env.fate sc σ q = .noInstance ∨ env.fate sc σ q = .cannotDeduce := by
    unfold Env.report?
    cases env.fate sc σ q <;> simp [Goal.report?, Report.isError, Problem.severity]
  rw [hfate]
  exact or_congr fate_eq_noInstance_iff fate_eq_cannotDeduce_iff

/-- What is known of types and holes at some point. -/
def State.answers (s : State) : Answers := .ofSolutions s.subst s.solutions

end

/-- Solving comes to an end, as the work list does. A constraint whose reduction has nothing that is
deferred, ambiguous or without evidence ends with complete evidence. The reports are those on the
reductions of the constraints, with an error if and only if no evidence for a member can be found. -/
theorem solve_settles {env : Env} (his : ∀ i ∈ env.globals.instances, i.WellFormed) (sc : Scoping)
    {ws : List Wanted} {s : State} (hs : s.Owns ws) :
    let is := env.globals.instanceEnv
    let r := (solve env sc ws).run s
    (∃ x, (∀ y, Drains env sc {} ws s y ↔ y = x) ∧
      r = (x.1.params.values, { x.2 with wanted := x.2.wanted ++ x.1.deferred })) ∧
    (∀ w ∈ ws, env.Settles sc s.subst w → ∃ e, r.2.answers.evidence.get? w.hole = some e ∧
      Derives s.subst is (env.givens ++ r.1) (s.subst.applyPred w.pred) e) ∧
    (s.newReports r.2).Perm (ws.flatMap (env.reportsOn sc s.subst)) ∧
    ∀ w ∈ ws, (∃ x ∈ env.reportsOn sc s.subst w, x.isError) ↔
      ∃ q, Reached s.subst is [w] q ∧ env.Fails s.subst q := by
  let bound := roundBound (ws.map fun w => { w with pred := s.subst.applyPred w.pred })
  let x := (solveRounds env sc bound {} ws).run s
  have hx : Drains env sc {} ws s x :=
    drains_solveRounds his bound rfl {} ws fun _ => within_roundBound
  intro is r
  have hr : r = (x.1.params.values, { x.2 with wanted := x.2.wanted ++ x.1.deferred }) := rfl
  refine ⟨⟨x, fun y => ⟨fun hy => hy.unique hx, fun hy => hy ▸ hx⟩, hr⟩, ?_, ?_, ?_⟩
  · intro w hw hsettles
    obtain ⟨-, himage, -⟩ := hx.later rfl
    exact hx.evidence rfl hs (by simp) himage hw hsettles
  · obtain ⟨new, hnew, hperm⟩ := hx.reports his rfl
    have hreports : s.newReports r.2 = new := newReports_eq hnew
    rw [hreports]
    exact hperm
  · intro w _
    have hmem {p : Report} : p ∈ env.reportsOn sc s.subst w ↔
        ∃ q, Reached s.subst is [w] q ∧ env.report? sc s.subst q = some p := by
      rw [Env.reportsOn, List.mem_filterMap]
      exact exists_congr fun q => and_congr_left fun _ => mem_reduction_iff his
    constructor
    · rintro ⟨p, hp, herr⟩
      obtain ⟨q, hq, hrep⟩ := hmem.1 hp
      exact ⟨q, hq, report?_isError_iff.1 ⟨p, hrep, herr⟩⟩
    · rintro ⟨q, hq, hfails⟩
      obtain ⟨p, hrep, herr⟩ := report?_isError_iff.2 hfails
      exact ⟨p, hmem.2 ⟨q, hq, hrep⟩, herr⟩

/-- Surroundings with `instance S Int` and `instance S a => S [a]`. -/
def Env.withInstances : Env :=
  let cls : Name := ⟨"S", "M", .type, 0⟩
  { globals := { Globals.empty "M" with instances := [
      ⟨⟨"$fSInt", "M", .value, 0⟩, .unknown, cls, Builtin.intTyCon, [], []⟩,
      ⟨⟨"$fSList", "M", .value, 0⟩, .unknown, cls, Builtin.listTyCon, ["a"], [⟨cls, .var "a"⟩]⟩] } }

/-- Of the constraints `S [Int]` and `S [b]`, the first gets evidence and the second fails. -/
theorem solve_settles_list :
    let cls : Name := ⟨"S", "M", .type, 0⟩
    let w : Wanted := ⟨⟨cls, .list .int⟩, 0, .unknown, "s"⟩
    let w' : Wanted := ⟨⟨cls, .list (.var "b")⟩, 1, .unknown, "s"⟩
    let env := Env.withInstances
    let s : State := { holes := 2 }
    let r := (solve env ⟨[], []⟩ [w, w']).run s
    (∀ i ∈ env.globals.instances, i.WellFormed) ∧ s.Owns [w, w'] ∧
    (∃ e, r.2.answers.evidence.get? w.hole = some e ∧
      Derives s.subst env.globals.instanceEnv (env.givens ++ r.1) (s.subst.applyPred w.pred) e) ∧
    ∃ q, Reached s.subst env.globals.instanceEnv [w'] q ∧ env.Fails s.subst q := by
  intro cls w w' env s r
  have his : ∀ i ∈ env.globals.instances, i.WellFormed := by
    simp only [env, Env.withInstances, List.forall_mem_cons]
    exact ⟨⟨by decide, by simp⟩, ⟨by decide, by simp⟩, by simp⟩
  have howns : s.Owns [w, w'] := ⟨by decide, by decide, by decide, by decide⟩
  obtain ⟨-, hevidence, -, hreports⟩ := solve_settles his ⟨[], []⟩ howns
  have hsettles : env.Settles ⟨[], []⟩ s.subst w := by
    have hall : ∀ q ∈ (w.goal s.subst).reduction s.subst env.globals.instanceEnv,
      (env.fate ⟨[], []⟩ s.subst q).isSolved := by decide +kernel
    exact fun q hq => hall q ((mem_reduction_iff his).2 hq)
  have herror : ∃ x ∈ env.reportsOn ⟨[], []⟩ s.subst w', x.isError := by decide +kernel
  exact ⟨his, howns, hevidence w (by simp) hsettles, (hreports w' (by simp)).1 herror⟩

end TypeLens.Check
