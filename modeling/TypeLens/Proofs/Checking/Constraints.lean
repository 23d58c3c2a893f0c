import TypeLens.Proofs.Checking.Compiled
import TypeLens.Proofs.Checking.Generalisation

/-!
What becomes of the constraints that a binding group raises. Solving deals with all constraints that
they reduce to, each as the variables at which the group may leave it open say.
-/

namespace TypeLens

namespace InstanceEnv

theorem mem_ofList {is : List Instance} {p : (Name × Name) × Instance} (h : p ∈ ofList is) :
    p.2 ∈ is := by
  have hfold {js : List Instance} {env : InstanceEnv} (henv : ∀ p ∈ env, p.2 ∈ is)
      (hjs : ∀ j ∈ js, j ∈ is) : ∀ p ∈ js.foldl (fun env i => (env.add i).1) env, p.2 ∈ is := by
    induction js generalizing env with
    | nil => exact henv
    | cons j js ih =>
      obtain ⟨hj, hjs⟩ := List.forall_mem_cons.1 hjs
      have hadd : ∀ p ∈ (env.add j).1, p.2 ∈ is := by
        unfold add
        split
        · exact henv
        · exact Table.forall_mem_put henv hj
      exact ih hadd hjs
  exact hfold (fun _ h => absurd h List.not_mem_nil) (fun _ h => h) p h

theorem match?_eq_some {env : InstanceEnv} {p : Pred} {x : Match} (h : env.match? p = some x) :
    (∃ head, p.arg.unconApp? = some (head, x.typeArgs) ∧ env.find? p.cls head = some x.inst) ∧
      x.context = x.inst.context.map (·.substVars (assign x.inst.tyvars x.typeArgs)) := by
  obtain ⟨⟨head, args⟩, harg, hrest⟩ := Option.bind_eq_some_iff.1 h
  obtain ⟨i, hi, hx⟩ := Option.bind_eq_some_iff.1 hrest
  cases hx
  exact ⟨⟨head, harg, hi⟩, rfl⟩

theorem of_match? {is : List Instance} {p : Pred} {x : Match}
    (h : (ofList is).match? p = some x) :
    (∃ head, p.arg.unconApp? = some (head, x.typeArgs)) ∧ x.inst ∈ is ∧
      x.context = x.inst.context.map (·.substVars (assign x.inst.tyvars x.typeArgs)) := by
  obtain ⟨⟨head, harg, hi⟩, hcontext⟩ := match?_eq_some h
  exact ⟨⟨head, harg⟩, mem_ofList (Table.mem_of_get? hi), hcontext⟩

end InstanceEnv

namespace Check

open Typed (DictVar Ident)

/-- A constraint as its type is known by now, at the occurrence that raised it. -/
structure Goal where
  pred : Pred
  loc : Span
  use : String

def Wanted.goal (σ : Subst) (w : Wanted) : Goal := ⟨σ.applyPred w.pred, w.loc, w.use⟩

namespace Goal

/-- What a constraint is reduced to through an instance. -/
def premises (σ : Subst) (is : InstanceEnv) (q : Goal) : List Goal :=
  match is.match? q.pred with
  | some x => x.context.map fun p => ⟨σ.applyPred p, q.loc, q.use⟩
  | none => []

/-- The report on a constraint with no evidence. -/
def report? (q : Goal) : Fate → Option Report
  | .noInstance => some ⟨.noInstance q.pred q.use, q.loc⟩
  | .cannotDeduce => some ⟨.cannotDeduce q.pred q.use, q.loc⟩
  | .ambiguous => some ⟨.ambiguousType q.pred q.use, q.loc⟩
  | .reduced _ | .given _ | .parameter _ | .deferred => none

end Goal

def Fate.isDeferred : Fate → Bool
  | .deferred => true
  | _ => false

/-- The constraints that solving comes to, from those that were raised. -/
inductive Reached (σ : Subst) (is : InstanceEnv) (ws : List Wanted) : Goal → Prop
  | raised {w : Wanted} (h : w ∈ ws) : Reached σ is ws (w.goal σ)
  | premise {q p : Goal} (h : Reached σ is ws q) (hp : p ∈ q.premises σ is) : Reached σ is ws p

-- Fates

section

variable {sc : Scoping} {σ : Subst} {is : InstanceEnv} {givens : List DictVar} {p : Pred}

theorem match?_of_fate_eq_reduced {x : InstanceEnv.Match}
    (h : sc.fate σ is givens p = .reduced x) : is.match? p = some x := by
  unfold Scoping.fate at h
  split at h
  · split at h <;> cases h
  · split at h
    · cases h
    · split at h <;> cases h
  · split at h
    · next hx =>
      cases h
      exact hx
    · cases h
    · cases h

theorem fate_of_match? {x : InstanceEnv.Match} (h : is.match? p = some x) :
    sc.fate σ is givens p = .reduced x := by
  obtain ⟨c, t⟩ := p
  obtain ⟨⟨head, args⟩, harg, -⟩ := Option.bind_eq_some_iff.1 h
  unfold Scoping.fate
  split
  · next v hv => 
    simp only at hv harg
    subst hv
    cases harg
  · next v hv =>
    simp only at hv harg
    subst hv
    cases harg
  · simp only [h]
    simp only at harg
    rw [harg]

theorem fate_uvar {m : UVar} (h : p.arg = .uvar m) :
    sc.fate σ is givens p = if m ∈ sc.generalised then .parameter m
      else if m ∈ sc.outer then .deferred else .ambiguous := by
  unfold Scoping.fate
  rw [h]

end

-- Solving

/-- An action of solving, which changes no types and no waiting constraints: `Q` says what it
returns and what it reports. -/
def Adds (σ : Subst) {α : Type} (act : CheckM α) (Q : α → List Report → Prop) : Prop :=
  ∀ s, s.subst.image? = σ.image? → (act.run s).2.subst.image? = σ.image? ∧
    (act.run s).2.wanted = s.wanted ∧
    ∃ new, (act.run s).2.reports = new ++ s.reports ∧ Q (act.run s).1 new

namespace Adds

variable {σ : Subst} {α β : Type} {act : CheckM α} {P : α → List Report → Prop}
  {Q : β → List Report → Prop}

theorem pure {a : α} (h : P a []) : Adds σ (Pure.pure a) P :=
  fun _ hs => ⟨hs, rfl, [], rfl, h⟩

theorem bind {f : α → CheckM β} (h : Adds σ act P)
    (hf : ∀ a new, P a new → Adds σ (f a) fun b new' => Q b (new' ++ new)) :
    Adds σ (act >>= f) Q := fun s hs => by
  obtain ⟨hs', hwanted, new, hnew, hP⟩ := h s hs
  obtain ⟨hs'', hwanted', new', hnew', hQ⟩ := hf _ new hP _ hs'
  refine ⟨hs'', hwanted'.trans hwanted, new' ++ new, ?_, hQ⟩
  rw [List.append_assoc, ← hnew]
  exact hnew'

/-- An action that reports nothing. -/
theorem silent {R : α → Prop} {f : α → CheckM β} (h : Adds σ act fun a new => R a ∧ new = [])
    (hf : ∀ a, R a → Adds σ (f a) Q) : Adds σ (act >>= f) Q :=
  h.bind fun a new ⟨ha, hnew⟩ => by
    subst hnew
    simpa using hf a ha

theorem report (p : Problem) (loc : Span) :
    Adds σ (Check.report p loc) fun _ new => new = [⟨p, loc⟩] :=
  fun _ hs => ⟨hs, rfl, [⟨p, loc⟩], rfl, rfl⟩

theorem solution (hole : Nat) (e : Typed.Evidence) :
    Adds σ (Check.solution hole e) fun _ new => True ∧ new = [] :=
  fun _ hs => ⟨hs, rfl, [], rfl, trivial, rfl⟩

theorem dictName (env : Env) (cls : Name) :
    Adds σ (Check.dictName env cls) fun _ new => True ∧ new = [] :=
  fun _ hs => ⟨hs, rfl, [], rfl, trivial, rfl⟩

theorem zonkPred (p : Pred) :
    Adds σ (Check.zonkPred p) fun q new => q = σ.applyPred p ∧ new = [] := fun s hs => by
  have hsame : s.subst.apply p.arg = σ.apply p.arg := congrArg p.arg.substUvars hs
  refine ⟨(s.subst.image?_zonk p.arg).trans hs, rfl, [], rfl, ?_, rfl⟩
  exact congrArg (Pred.mk p.cls) ((s.subst.zonk_fst p.arg).trans hsame)

theorem get : Adds σ (MonadState.get : CheckM State) fun s new =>
    s.subst.image? = σ.image? ∧ new = [] :=
  fun _ hs => ⟨hs, rfl, [], rfl, hs, rfl⟩

theorem wantedFor (loc : Span) (use : String) (ps : List Pred) :
    Adds σ (Check.wantedFor loc use ps) fun ws new =>
      ws.map (·.goal σ) = ps.map (fun p => ⟨σ.applyPred p, loc, use⟩) ∧ new = [] := by
  induction ps with
  | nil => exact .pure ⟨rfl, rfl⟩
  | cons p ps ih =>
    have hhole : Adds σ freshHole fun _ new => True ∧ new = [] :=
      fun _ hs => ⟨hs, rfl, [], rfl, trivial, rfl⟩
    refine hhole.silent fun h _ => ih.silent fun ws hws => .pure ⟨?_, rfl⟩
    rw [List.map_cons, hws]
    rfl

end Adds

section

variable {env : Env} {sc : Scoping} {σ : Subst}

/-- What becomes of a constraint. -/
def Env.fate (env : Env) (sc : Scoping) (σ : Subst) (q : Goal) : Fate :=
  sc.fate σ env.globals.instanceEnv env.givens q.pred

/-- The report on a constraint in the environment. -/
def Env.report? (env : Env) (sc : Scoping) (σ : Subst) (q : Goal) : Option Report :=
  q.report? (env.fate sc σ q)

theorem fate_congr {σ' : Subst} (h : σ'.image? = σ.image?) (is : InstanceEnv)
    (givens : List DictVar) (p : Pred) : sc.fate σ' is givens p = sc.fate σ is givens p := by
  have hgiven : findGiven σ' givens p = findGiven σ givens p := by
    unfold findGiven Subst.applyPred
    rw [h]
  unfold Scoping.fate
  rw [hgiven]

/-- What solving does with one constraint: `acc` was known before. -/
structure Handled (env : Env) (sc : Scoping) (σ : Subst) (acc : Solved) (w : Wanted)
    (r : Solved × List Wanted) (new : List Report) : Prop where
  reports : new = (env.report? sc σ (w.goal σ)).toList
  deferred : r.1.deferred =
    acc.deferred ++ if (env.fate sc σ (w.goal σ)).isDeferred then [w] else []
  goals : r.2.map (·.goal σ) = (w.goal σ).premises σ env.globals.instanceEnv

theorem Handled.of_fate {acc acc' : Solved} {w : Wanted} {fate : Fate}
    (h : env.fate sc σ (w.goal σ) = fate) (hne : ∀ x, fate ≠ .reduced x)
    (hacc : acc'.deferred = acc.deferred ++ if fate.isDeferred then [w] else []) :
    Handled env sc σ acc w (acc', []) ((w.goal σ).report? fate).toList := by
  have hgoals : (w.goal σ).premises σ env.globals.instanceEnv = [] := by
    unfold Goal.premises
    split
    · next x hx => exact absurd (fate_of_match? hx) (h ▸ hne x)
    · rfl
  subst h
  exact ⟨rfl, hacc, hgoals.symm⟩

theorem adds_solveOne (acc : Solved) (w : Wanted) :
    Adds σ (solveOne env sc acc w) (Handled env sc σ acc w) := by
  refine (Adds.zonkPred w.pred).silent fun p hp => ?_
  subst hp
  refine Adds.get.silent fun s hs => ?_
  have hfate : sc.fate s.subst env.globals.instanceEnv env.givens (σ.applyPred w.pred) =
    env.fate sc σ (w.goal σ) := fate_congr hs _ _ _
  rw [hfate]
  cases h : env.fate sc σ (w.goal σ) with
  | reduced x =>
    refine (Adds.wantedFor w.loc w.use x.context).silent fun goals hgoals => ?_
    refine (Adds.solution _ _).silent fun _ _ => .pure ⟨?_, ?_, ?_⟩
    · simp [Env.report?, h, Goal.report?]
    · simp [Fate.isDeferred, h]
    · have hx : env.globals.instanceEnv.match? (w.goal σ).pred = some x :=
        match?_of_fate_eq_reduced h
      simp only [hgoals, Goal.premises, hx]
      rfl
  | given d =>
    exact (Adds.solution _ _).silent fun _ _ =>
      .pure (.of_fate h (by simp) (by simp [Fate.isDeferred]))
  | parameter k =>
    dsimp only
    split
    · exact (Adds.solution _ _).silent fun _ _ =>
        .pure (.of_fate h (by simp) (by simp [Fate.isDeferred]))
    · exact (Adds.dictName _ _).silent fun _ _ => (Adds.solution _ _).silent fun _ _ =>
        .pure (.of_fate h (by simp) (by simp [Fate.isDeferred]))
  | deferred => exact .pure (.of_fate h (by simp) (by simp [Fate.isDeferred]))
  | noInstance | cannotDeduce | ambiguous =>
    refine (Adds.report _ _).bind fun _ new hnew => ?_
    subst hnew
    exact .pure (.of_fate h (by simp) (by simp [Fate.isDeferred]))

theorem adds_solveRound (acc : Solved) (ws : List Wanted) :
    Adds σ (solveRound env sc acc ws) fun r new =>
      new = (ws.filterMap fun w => env.report? sc σ (w.goal σ)).reverse ∧
      r.1.deferred = acc.deferred ++ ws.filter (fun w => (env.fate sc σ (w.goal σ)).isDeferred) ∧
      r.2.map (·.goal σ) = ws.flatMap fun w => (w.goal σ).premises σ env.globals.instanceEnv := by
  induction ws generalizing acc with
  | nil => exact .pure ⟨rfl, by simp, rfl⟩
  | cons w ws ih =>
    refine (adds_solveOne acc w).bind fun r new hr => ?_
    refine (ih r.1).bind fun r' new' ⟨hreports, hdeferred, hgoals⟩ => .pure ⟨?_, ?_, ?_⟩
    · rw [hr.reports, hreports]
      cases h : env.report? sc σ (w.goal σ) with
      | none | some => simp [h]
    · rw [hdeferred, hr.deferred, List.append_assoc]
      cases h : (env.fate sc σ (w.goal σ)).isDeferred with
      | true | false => simp [h]
    · rw [List.map_append, hr.goals, hgoals, List.flatMap_cons]

theorem reached_iff {is : InstanceEnv} {ws ws' : List Wanted}
    (h : ws'.map (·.goal σ) = ws.flatMap fun w => (w.goal σ).premises σ is) {q : Goal} :
    Reached σ is ws q ↔ (∃ w ∈ ws, w.goal σ = q) ∨ Reached σ is ws' q := by
  have hmem {p : Goal} : (∃ w ∈ ws', w.goal σ = p) ↔ ∃ w ∈ ws, p ∈ (w.goal σ).premises σ is := by
    rw [← List.mem_map, h, List.mem_flatMap]
  constructor
  · intro hq
    induction hq with
    | @raised w hw => exact .inl ⟨w, hw, rfl⟩
    | premise _ hp ih =>
      rcases ih with ⟨w, hw, rfl⟩ | ih
      · obtain ⟨w', hw', rfl⟩ := hmem.2 ⟨w, hw, hp⟩
        exact .inr (.raised hw')
      · exact .inr (.premise ih hp)
  · rintro (⟨w, hw, rfl⟩ | hq)
    · exact .raised hw
    · induction hq with
      | @raised w' hw' =>
        obtain ⟨w, hw, hp⟩ := hmem.1 ⟨w', hw', rfl⟩
        exact .premise (.raised hw) hp
      | premise _ hp ih => exact .premise ih hp

/-- So many rounds are enough for a constraint and all that it reduces to. -/
def Goal.Within (is : InstanceEnv) (n : Nat) (q : Goal) : Prop :=
  0 < n ∧ (q.pred.arg.size < n ∨ is.match? q.pred = none)

/-- Types that are known by now do not change. -/
theorem apply_of_mem_typeArgs {t u : Ty} {c : Name} {ts : List Ty}
    (h : (σ.apply t).unconApp? = some (c, ts)) (hu : u ∈ ts) : σ.apply u = u := by
  refine Ty.substUvars_eq_self fun k hk => Subst.image?_of_mem_apply (t := t) ?_
  have hall : (σ.apply t).uvarOccurrences = ts.flatMap Ty.uvarOccurrences := by
    rw [Ty.eq_conApp_of_unconApp? h, Ty.conApp, Ty.uvarOccurrences_apps]
    rfl
  rw [hall]
  exact List.mem_flatMap.2 ⟨u, hu, hk⟩

/-- Contexts of instances are on variables, so a constraint reduces to ones on smaller types. -/
theorem within_of_mem_premises {is : List Instance} (his : ∀ i ∈ is, i.WellFormed) {n : Nat}
    {w : Wanted} (hw : (w.goal σ).Within (.ofList is) (n + 1)) {p : Goal}
    (hp : p ∈ (w.goal σ).premises σ (.ofList is)) : p.Within (.ofList is) n := by
  unfold Goal.premises at hp
  split at hp
  · next x hx =>
    have hlt : (w.goal σ).pred.arg.size < n + 1 := hw.2.resolve_right (by simp [hx])
    have hpos := (w.goal σ).pred.arg.size_pos
    obtain ⟨⟨head, hargs⟩, hinst, hcontext⟩ := InstanceEnv.of_match? hx
    have happ := Ty.eq_conApp_of_unconApp? hargs
    obtain ⟨c, hc, hcp⟩ : ∃ c ∈ x.inst.context,
        p.pred.arg = σ.apply (c.substVars (assign x.inst.tyvars x.typeArgs)).arg := by
      obtain ⟨r, hr, rfl⟩ := List.mem_map.1 hp
      rw [hcontext] at hr
      obtain ⟨c, hc, rfl⟩ := List.mem_map.1 hr
      exact ⟨c, hc, rfl⟩
    obtain ⟨v, -, hv⟩ := (his _ hinst).context c hc
    have harg : (c.substVars (assign x.inst.tyvars x.typeArgs)).arg =
        (assign x.inst.tyvars x.typeArgs v).getD (.var v) := by
      rw [Pred.substVars, hv]
      rfl
    rw [harg] at hcp
    refine ⟨by omega, ?_⟩
    cases ha : assign x.inst.tyvars x.typeArgs v with
    | none =>
      have hvar : p.pred.arg = .var v := by
        rw [hcp, ha]
        rfl
      right
      rw [InstanceEnv.match?, hvar]
      rfl
    | some a =>
      have hmem : a ∈ x.typeArgs := mem_of_assign ha
      have hself : σ.apply a = a := apply_of_mem_typeArgs hargs hmem
      have hsmall : a.size < (w.goal σ).pred.arg.size := by
        rw [happ]
        exact Ty.size_lt_of_mem_args hmem
      have hpa : p.pred.arg = a := by
        rw [hcp, ha]
        exact hself
      left
      rw [hpa]
      omega
  · cases hp

/-- Solving deals with exactly the constraints that those raised reduce to. -/
theorem adds_solveRounds (his : ∀ i ∈ env.globals.instances, i.WellFormed) (n : Nat) (acc : Solved)
    (ws : List Wanted) (hn : ∀ w ∈ ws, (w.goal σ).Within env.globals.instanceEnv n) :
    Adds σ (solveRounds env sc n acc ws) fun r new => ∃ all : List Wanted,
      new = (all.filterMap fun w => env.report? sc σ (w.goal σ)).reverse ∧
      r.deferred = acc.deferred ++ all.filter (fun w => (env.fate sc σ (w.goal σ)).isDeferred) ∧
      ∀ q, Reached σ env.globals.instanceEnv ws q ↔ ∃ w ∈ all, w.goal σ = q := by
  induction n generalizing acc ws with
  | zero =>
    have hws : ws = [] := List.eq_nil_iff_forall_not_mem.2 fun w hw =>
      absurd (hn w hw).1 (Nat.lt_irrefl 0)
    subst hws
    refine .pure ⟨[], rfl, by simp, fun q => ?_⟩
    constructor
    · intro hq
      induction hq with
      | raised hw => cases hw
      | premise _ _ ih =>
        obtain ⟨w, hw, -⟩ := ih
        cases hw
    · rintro ⟨w, hw, -⟩
      cases hw
  | succ n ih =>
    refine (adds_solveRound acc ws).bind fun r new ⟨hreports, hdeferred, hgoals⟩ => ?_
    have hnext : ∀ w ∈ r.2, (w.goal σ).Within env.globals.instanceEnv n := by
      intro w hw
      have hmem : w.goal σ ∈ ws.flatMap fun w => (w.goal σ).premises σ env.globals.instanceEnv :=
        hgoals ▸ List.mem_map_of_mem hw
      obtain ⟨w', hw', hp⟩ := List.mem_flatMap.1 hmem
      exact within_of_mem_premises his (hn w' hw') hp
    intro s hs
    obtain ⟨hs', hwanted, new', hnew', all, hreports', hdeferred', hall⟩ := ih r.1 r.2 hnext s hs
    refine ⟨hs', hwanted, new', hnew', ws ++ all, ?_, ?_, fun q => ?_⟩
    · rw [hreports, hreports', List.filterMap_append, List.reverse_append]
    · rw [hdeferred', hdeferred, List.filter_append, List.append_assoc]
    · rw [reached_iff hgoals, hall]
      simp only [List.mem_append, or_and_right, exists_or]

theorem within_roundBound {is : InstanceEnv} {ws : List Wanted} {w : Wanted} (hw : w ∈ ws) :
    (w.goal σ).Within is (roundBound (ws.map fun w => { w with pred := σ.applyPred w.pred })) := by
  have hmax {k n : Nat} {ns : List Nat} (h : k ≤ n ∨ k ∈ ns) : k ≤ ns.foldl max n := by
    induction ns generalizing n with
    | nil => exact h.resolve_right (by simp)
    | cons m ns ih =>
      refine ih ?_
      rcases h with h | h
      · exact .inl (by omega)
      · rcases List.mem_cons.1 h with rfl | h
        · exact .inl (by omega)
        · exact .inr h
  let zonked := ws.map fun w => { w with pred := σ.applyPred w.pred }
  have hle : (w.goal σ).pred.arg.size ≤ (zonked.map (·.pred.arg.size)).foldl max 0 := by
    refine hmax (.inr ?_)
    rw [List.map_map]
    exact List.mem_map.2 ⟨w, hw, rfl⟩
  exact ⟨Nat.succ_pos _, .inl (Nat.lt_succ_of_le hle)⟩

end

/-- Every constraint that those raised reduce to is reported or deferred if its fate says so. -/
theorem run_solve {env : Env} (his : ∀ i ∈ env.globals.instances, i.WellFormed) (sc : Scoping)
    (ws : List Wanted) (s : State) :
    let s' := ((solve env sc ws).run s).2
    ∃ all : List Wanted,
      s'.reports =
        (all.filterMap fun w => env.report? sc s.subst (w.goal s.subst)).reverse ++ s.reports ∧
      s'.wanted = s.wanted ++ all.filter (fun w => (env.fate sc s.subst (w.goal s.subst)).isDeferred) ∧
      ∀ q, Reached s.subst env.globals.instanceEnv ws q ↔ ∃ w ∈ all, w.goal s.subst = q := by
  let bound := roundBound (ws.map fun w => { w with pred := s.subst.applyPred w.pred })
  obtain ⟨-, hwanted, new, hreports, all, rfl, hdeferred, hall⟩ :=
    @adds_solveRounds env sc s.subst his bound {} ws (fun _ => within_roundBound) s rfl
  refine ⟨all, hreports, ?_, hall⟩
  have hs' : ((solve env sc ws).run s).2.wanted =
    ((solveRounds env sc bound {} ws).run s).2.wanted ++
      ((solveRounds env sc bound {} ws).run s).1.deferred := rfl
  rw [hs', hwanted, hdeferred]
  rfl

-- Binding groups

/-- The reports that have come since `s`. -/
def State.newReports (s s' : State) : List Report :=
  s'.reports.take (s'.reports.length - s.reports.length)

/-- The constraints that wait since `s`. -/
def State.newWanted (s s' : State) : List Wanted := s'.wanted.drop s.wanted.length

theorem newReports_eq {s s' : State} {new : List Report} (h : s'.reports = new ++ s.reports) :
    s.newReports s' = new := by
  rw [State.newReports, h, List.length_append, Nat.add_sub_cancel, List.take_left]

theorem newWanted_eq {s s' : State} {new : List Wanted} (h : s'.wanted = s.wanted ++ new) :
    s.newWanted s' = new := by
  rw [State.newWanted, h, List.drop_left]

/-- No constraint is lost between `s` and `s'`: one on a variable is reported as ambiguous only if
the variable is free neither in the types of the binders nor in the environment, and one on a
variable that is free in the environment waits for the enclosing group. -/
structure Kept (env : Env) (binders : List UVar) (raised : List Wanted) (s s' : State) : Prop where
  ambiguous : ∀ p use loc m, ⟨.ambiguousType p use, loc⟩ ∈ s.newReports s' → p.arg = .uvar m →
    m ∉ binders ∧ m ∉ uvarsOf s.subst env.locals
  deferred : ∀ q m, Reached s.subst env.globals.instanceEnv raised q → q.pred.arg = .uvar m →
    m ∈ uvarsOf s.subst env.locals → ∃ w ∈ s.newWanted s', w.goal s.subst = q

/-- Solving keeps all constraints if and only if the variables with constraints that are free in the
environment are among those that are known to be. -/
theorem kept_solve_iff {env : Env} (inner : Env) (sc : Scoping) (henv : inner.globals = env.globals)
    (his : ∀ i ∈ env.globals.instances, i.WellFormed) {binders : List UVar}
    (hsc : ∀ m, m ∈ sc.generalised ↔ m ∈ binders ∧ m ∉ sc.outer) (ws : List Wanted)
    {s s' : State} (hreports : s'.reports = ((solve inner sc ws).run s).2.reports)
    (hwanted : s'.wanted = ((solve inner sc ws).run s).2.wanted) :
    Kept env binders ws s s' ↔
      ∀ q m, Reached s.subst env.globals.instanceEnv ws q → q.pred.arg = .uvar m →
        m ∈ uvarsOf s.subst env.locals → m ∈ sc.outer := by
  obtain ⟨all, hall, hallw, hreached⟩ := run_solve (henv ▸ his) sc ws s
  rw [henv] at hreached
  have hnew := newReports_eq (hreports.trans hall)
  have hneww := newWanted_eq (hwanted.trans hallw)
  have hfate {q : Goal} {m : UVar} (hm : q.pred.arg = .uvar m) : inner.fate sc s.subst q =
      if m ∈ sc.generalised then .parameter m else if m ∈ sc.outer then .deferred else .ambiguous :=
    fate_uvar hm
  constructor
  · intro h q m hq hm henv
    obtain ⟨w, hw, hwq⟩ := h.deferred q m hq hm henv
    rw [hneww, List.mem_filter, hwq, hfate hm] at hw
    by_cases hgen : m ∈ sc.generalised
    · simp [hgen, Fate.isDeferred] at hw
    · by_cases hout : m ∈ sc.outer
      · exact hout
      · simp [hgen, hout, Fate.isDeferred] at hw
  · intro h
    refine ⟨fun p use loc m hp hm => ?_, fun q m hq hm henv => ?_⟩
    · rw [hnew, List.mem_reverse, List.mem_filterMap] at hp
      obtain ⟨w, hw, hrep⟩ := hp
      have hq : Reached s.subst env.globals.instanceEnv ws (w.goal s.subst) :=
        (hreached _).2 ⟨w, hw, rfl⟩
      have hwp : (w.goal s.subst).pred = p ∧ inner.fate sc s.subst (w.goal s.subst) = .ambiguous := by
        unfold Env.report? at hrep
        cases hf : inner.fate sc s.subst (w.goal s.subst) with
        | ambiguous =>
          rw [hf] at hrep
          cases hrep
          exact ⟨rfl, rfl⟩
        | _ => simp [hf, Goal.report?] at hrep
      obtain ⟨rfl, hamb⟩ := hwp
      rw [hfate hm] at hamb
      by_cases hgen : m ∈ sc.generalised
      · simp [hgen] at hamb
      · by_cases hout : m ∈ sc.outer
        · simp [hgen, hout] at hamb
        · exact ⟨fun hb => hgen ((hsc m).2 ⟨hb, hout⟩), fun henv => hout (h _ m hq hm henv)⟩
    · obtain ⟨w, hw, rfl⟩ := (hreached q).1 hq
      have hout := h _ m hq hm henv
      have hgen : m ∉ sc.generalised := fun hgen => ((hsc m).1 hgen).2 hout
      refine ⟨w, ?_, rfl⟩
      rw [hneww, List.mem_filter]
      refine ⟨hw, ?_⟩
      rw [hfate hm]
      simp [hgen, hout, Fate.isDeferred]

theorem run_closeGroup (env : Env) (g : OpenGroup) (loc : Span) (s : State) :
    ((closeGroup env g loc).run s).2 =
      ((skolemise (g.uvars s.subst) (freshTyvars env.rigid (g.uvars s.subst).length)).run
        ((solve env ⟨g.uvars s.subst, g.outer⟩ g.raised).run s).2).2 := rfl

/-- The equations of a signed binding, with the dictionaries it takes and the constraints that they
raise. -/
def openSigned (env : Env) (poly : Ident) (j : FunJob) :
    CheckM (List DictVar × Typed.MatchGroup × List Wanted) := do
  let s := poly.scheme
  let givens ← s.preds.mapM fun p => return (⟨← dictName env p.cls, p⟩ : DictVar)
  let inner := { env with givens := env.givens ++ givens, rigid := env.rigid ++ s.tvs }
  let (g, raised) ← collecting (checkGroup inner s.body j.first j.rest)
  return (givens, g, raised)

theorem checkSigned_eq (env : Env) (poly : Ident) (j : FunJob) :
    checkSigned env poly j = (do
      let (givens, g, raised) ← openSigned env poly j
      let inner : Env := { env with
        givens := env.givens ++ givens
        rigid := env.rigid ++ poly.scheme.tvs }
      let outer := uvarsOf (← get).subst env.locals
      let _ ← solve inner ⟨[], outer⟩ raised
      let mono : Ident := ⟨poly.name, .mono poly.scheme.body⟩
      return .abs poly.scheme.tvs givens [⟨poly, mono⟩] [.fn mono g j.loc] j.loc) := by
  unfold checkSigned openSigned
  simp only [bind_assoc, pure_bind]

theorem snd_run_bind {α β : Type} (act : CheckM α) (f : α → CheckM β) (s : State) :
    ((act >>= f).run s).2 = ((f (act.run s).1).run (act.run s).2).2 := rfl

theorem snd_run_pure {α : Type} (a : α) (s : State) : ((pure a : CheckM α).run s).2 = s := rfl

theorem run_get (s : State) : (get : CheckM State).run s = (s, s) := rfl

theorem run_checkSigned (env : Env) (poly : Ident) (j : FunJob) (s : State) :
    let r := (openSigned env poly j).run s
    let inner : Env := { env with
      givens := env.givens ++ r.1.1
      rigid := env.rigid ++ poly.scheme.tvs }
    ((checkSigned env poly j).run s).2 =
      ((solve inner ⟨[], uvarsOf r.2.subst env.locals⟩ r.1.2.2).run r.2).2 := by
  rw [checkSigned_eq, snd_run_bind, snd_run_bind, snd_run_bind, run_get, snd_run_pure]

/-- The schemes that a module checks bindings against: those of signatures, and those of methods in
its instances. -/
inductive Signs (m : Surface.Module) (imports : List Exports) : Scheme → Prop
  | signature {p : String × Scheme} (h : p ∈ (declared m imports).2.signatures) :
      Signs m imports p.2
  | method {d : Instance × Surface.InstanceDecl} {c : TypeClass} {x : Identifier}
      (hd : d ∈ (declared m imports).1)
      (hc : (elaborate m imports).declared.globals.entity? d.1.cls = some (.typeClass c))
      (hx : x ∈ c.methods) : Signs m imports (methodScheme c.tyvar d.1 x.scheme)

variable {m : Surface.Module} {imports : List Exports}

theorem Signs.uvarOccurrences_eq_nil (hi : ∀ x ∈ imports, x.WellFormed True) {s : Scheme}
    (h : Signs m imports s) : s.body.uvarOccurrences = [] := by
  cases h with
  | signature h => exact (sound_declared hi).1.signatures _ h
  | @method d c x _ hc hx =>
    obtain ⟨-, hclass⟩ := (wellFormed_elaborate hi).globals.of_entity? hc
    refine Ty.uvarOccurrences_substVars (hclass x hx).1 fun v u hu => ?_
    rcases List.mem_cons.1 (mem_of_assign hu) with rfl | hu
    · refine Ty.uvarOccurrences_conApp fun t ht => ?_
      obtain ⟨w, -, rfl⟩ := List.mem_map.1 ht
      rfl
    · obtain ⟨w, -, rfl⟩ := List.mem_map.1 hu
      rfl

/-- Closing a group loses none of the constraints that its bindings raise. -/
def GroupKept (env : Env) (nameOf : String → CheckM Name) (js : List Job) (loc : Span)
    (s : State) : Prop :=
  let r := (openGroup env nameOf js).run s
  Kept env (uvarsOf r.2.subst r.1.monos) r.1.raised r.2 ((closeGroup env r.1 loc).run r.2).2

theorem not_groupKept_of_mem {env : Env} {nameOf : String → CheckM Name} {js : List Job}
    {loc loc' : Span} {s : State} {cls : Name} {use : String} {k : UVar}
    (h : let r := (openGroup env nameOf js).run s
      (⟨.ambiguousType ⟨cls, .uvar k⟩ use, loc'⟩ ∈
        r.2.newReports ((closeGroup env r.1 loc).run r.2).2) ∧ k ∈ uvarsOf r.2.subst env.locals) :
    ¬ GroupKept env nameOf js loc s :=
  fun hkept => (hkept.ambiguous _ _ _ _ h.1 rfl).2 h.2

/-- A signed binding loses none of the constraints that its equations raise. -/
def SignedKept (env : Env) (poly : Ident) (j : FunJob) (s : State) : Prop :=
  let r := (openSigned env poly j).run s
  Kept env (r.2.subst.apply poly.scheme.body).uvarOccurrences r.1.2.2 r.2
    ((checkSigned env poly j).run s).2

/-- In the environments of a module, a group without signatures keeps all constraints if and only if
none is on a variable that has become free in the environment by checking the group. A binding with
a signature always does, as the variables are collected after its equations are checked. -/
theorem constraints_kept_iff (hi : ∀ x ∈ imports, Compiled x) {env : Env}
    (henv : env.globals.instances = (declared m imports).2.globals.instances) :
    (∀ nameOf js loc s,
      let r := (openGroup env nameOf js).run s
      GroupKept env nameOf js loc s ↔
        ∀ q k, Reached r.2.subst env.globals.instanceEnv r.1.raised q → q.pred.arg = .uvar k →
          k ∈ uvarsOf r.2.subst env.locals → k ∈ uvarsOf s.subst env.locals) ∧
    ∀ poly j s, Signs m imports poly.scheme → SignedKept env poly j s := by
  have himports : ∀ x ∈ imports, x.WellFormed True := fun x hx => (hi x hx).wellFormed
  have his : ∀ i ∈ env.globals.instances, i.WellFormed := by
    rw [henv]
    exact (sound_declared himports).1.globals.instances
  refine ⟨?_, ?_⟩
  · intro nameOf js loc s r
    let s' := ((solve env ⟨r.1.uvars r.2.subst, r.1.outer⟩ r.1.raised).run r.2).2
    have hreports : ((closeGroup env r.1 loc).run r.2).2.reports = s'.reports := by
      rw [run_closeGroup]
      rfl
    have hwanted : ((closeGroup env r.1 loc).run r.2).2.wanted = s'.wanted := by
      rw [run_closeGroup]
      rfl
    exact kept_solve_iff env ⟨r.1.uvars r.2.subst, r.1.outer⟩ rfl his
      (fun _ => OpenGroup.mem_uvars) r.1.raised hreports hwanted
  · intro poly j s hsigns
    let r := (openSigned env poly j).run s
    let inner : Env := { env with
      givens := env.givens ++ r.1.1
      rigid := env.rigid ++ poly.scheme.tvs }
    let outer := uvarsOf r.2.subst env.locals
    have hground : poly.scheme.body.uvarOccurrences = [] := hsigns.uvarOccurrences_eq_nil himports
    have hbody : r.2.subst.apply poly.scheme.body = poly.scheme.body :=
      Ty.substUvars_eq_self fun k hk => absurd (hground ▸ hk) List.not_mem_nil
    have hsc : ∀ k, k ∈ ([] : List UVar) ↔ k ∈ ([] : List UVar) ∧ k ∉ outer := by simp
    have hrun : ((checkSigned env poly j).run s).2 =
      ((solve inner ⟨[], outer⟩ r.1.2.2).run r.2).2 := run_checkSigned env poly j s
    change Kept env (r.2.subst.apply poly.scheme.body).uvarOccurrences r.1.2.2 r.2
      ((checkSigned env poly j).run s).2
    rw [hbody, hground]
    have hglobals : inner.globals = env.globals := rfl
    refine (kept_solve_iff inner ⟨[], outer⟩ hglobals his hsc r.1.2.2
      (congrArg State.reports hrun) (congrArg State.wanted hrun)).2 ?_
    exact fun q k _ _ hk => hk

/-- The module with `data B = B`, `class S a where s :: a -> B` and further declarations. -/
def classModule (decls : List Surface.Decl) : Surface.Module :=
  let arg : Surface.TypeExpr := .var "a" .unknown
  let data : Surface.DataDecl := ⟨"B", [], [⟨"B", [], .unknown⟩], .unknown, .unknown⟩
  let sig : Surface.TypeSig :=
    ⟨[("s", .unknown)], ⟨[], .fn arg (.con "B" [] .unknown) .unknown, .unknown⟩, .unknown⟩
  { Surface.Module.empty "M" with
    decls := .data data :: .cls ⟨"S", "a", [sig], .unknown, .unknown⟩ :: decls }

/-- The binding `y = s arg`. -/
def constrained (arg : Surface.Expr) : Surface.Binding :=
  .fn (.mk "y" .unknown (.mk [] (.app (.var "s" .unknown) arg .unknown) .unknown) [] .unknown)

/-- The surroundings of a binding in a module, with a variable `x` of unknown type. -/
def Env.around (m : Surface.Module) : Env :=
  { globals := (declared m []).2.globals
    locals := [("x", ⟨⟨"x", "M", .value, 1⟩, .mono (.uvar 1)⟩)] }

theorem instances_around (m : Surface.Module) :
    (Env.around m).globals.instances = (declared m []).2.globals.instances := rfl

/-- Checking `y = s arg` in these surroundings loses no constraint. -/
abbrev ConstrainedKept (m : Surface.Module) (arg : Surface.Expr) : Prop :=
  GroupKept (.around m) (localName (.around m)) [job (constrained arg)] .unknown
    { uvars := 1, uniques := 1 }

/-- The constraint of `y = s x` waits for the group of `x`. -/
theorem constraints_kept_of_classModule :
    let arg : Surface.TypeExpr := .var "a" .unknown
    let sig : Surface.TypeSig := ⟨[("g", .unknown)],
      ⟨[⟨"S", "a", .unknown⟩], .fn arg (.con "B" [] .unknown) .unknown, .unknown⟩, .unknown⟩
    let g := function "g" "x" (.app (.var "s" .unknown) (.var "x" .unknown) .unknown)
    let m := classModule [.sig sig, .bind g]
    (Env.around m).globals.instances = (declared m []).2.globals.instances ∧
    ConstrainedKept m (.var "x" .unknown) ∧
    (declared m []).2.signatures.length = 1 ∧
    ∀ poly j s, poly.scheme ∈ (declared m []).2.signatures.values →
      SignedKept (.around m) poly j s := by
  have hgroup {m : Surface.Module} (nameOf : String → CheckM Name) (js : List Job) (loc : Span)
      (s : State) (hfree : uvarsOf ((openGroup (.around m) nameOf js).run s).2.subst
        (Env.around m).locals = uvarsOf s.subst (Env.around m).locals) :
      GroupKept (.around m) nameOf js loc s := by
    obtain ⟨hgroups, -⟩ := @constraints_kept_iff m [] (by simp) _ (instances_around m)
    exact (hgroups nameOf js loc s).2 fun q k _ _ hk => hfree ▸ hk
  intro arg sig g m
  obtain ⟨-, hsigned⟩ := @constraints_kept_iff m [] (by simp) _ (instances_around m)
  refine ⟨instances_around m, hgroup _ _ _ _ (by decide +kernel), by decide +kernel, ?_⟩
  intro poly j s h
  obtain ⟨p, hp, hscheme⟩ := List.mem_map.1 h
  exact hsigned poly j s (hscheme ▸ .signature hp)

/-- The constraint of `y = s (x 1)` is reported as ambiguous, although its variable is in the type
of `x` by then: in `f x = let { y = s (x 1) } in x 1` it is lost. -/
theorem constraints_lost :
    let arg : Surface.Expr := .app (.var "x" .unknown) (.lit (.int 1) .unknown) .unknown
    let m := classModule [.bind (function "f" "x" (.letIn [constrained arg] arg .unknown))]
    ¬ ConstrainedKept m arg ∧
    (run m []).reports.map (·.problem) =
      [.ambiguousType ⟨⟨"S", "M", .type, 0⟩, .uvar 7⟩ "s"] ∧
    (run m []).checked.exports.entities.get? ⟨"f", "M", .value, 0⟩ =
      some (.ident ⟨⟨"f", "M", .value, 0⟩, .unknown,
        ⟨["a"], [], .fn (.fn .int (.var "a")) (.var "a")⟩, none⟩) := by
  intro arg m
  have hlost : ¬ ConstrainedKept m arg :=
    @not_groupKept_of_mem _ _ _ _ .unknown _ ⟨"S", "M", .type, 0⟩ "s" 5 (by decide +kernel)
  exact ⟨hlost, by decide +kernel, by decide +kernel⟩

end Check

end TypeLens
