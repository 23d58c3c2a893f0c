import Mathlib.Data.List.Forall2
import Mathlib.Logic.Relation
import TypeLens.Check.Module

/-!
Runs of checking, as far as the substitution is concerned: new variables, types that are looked up
or made equal, and variables that become rigid, in any order. What two types have in common stays.
All that checking does is a run: none of its actions changes the substitution in another way.
-/

namespace TypeLens.Check

variable {P : Ty → Prop} {N : Inferred → Prop} {s s' s'' : State}

/-- One step of a run in which only types with the property `P` are made equal, and only expressions
with the property `N` are noted. -/
inductive Step (P : Ty → Prop) (N : Inferred → Prop) : State → State → Prop
  | fresh (s : State) : Step P N s (freshUvar.run s).2
  | zonk (s : State) (t : Ty) : Step P N s ((zonk t).run s).2
  | unify (s : State) {a b : Ty} (loc : Span) (ha : P a) (hb : P b) :
      Step P N s ((unify a b loc).run s).2
  | skolemise (s : State) {uvars : List UVar} (tvs : List String) (hn : uvars.Nodup)
      (hu : ∀ m ∈ uvars, s.subst.image? m = none) : Step P N s ((skolemise uvars tvs).run s).2
  | note (s : State) {e : Inferred} (he : N e) : Step P N s ((note e).run s).2
  /-- What has nothing to do with types. -/
  | other {s s' : State} (hs : s'.subst = s.subst) (hu : s'.uvars = s.uvars)
      (hr : s.reports <:+ s'.reports) (hi : s'.inferred = s.inferred) : Step P N s s'

abbrev Runs (P : Ty → Prop) (N : Inferred → Prop) : State → State → Prop :=
  Relation.ReflTransGen (Step P N)

structure Later (s s' : State) : Prop where
  grows : s.subst.Grows s'.subst
  reports : s.reports <:+ s'.reports
  inferred : s.inferred <:+ s'.inferred

theorem Later.refl (s : State) : Later s s :=
  ⟨.refl _, List.suffix_refl _, List.suffix_refl _⟩

theorem Later.trans (h : Later s s') (h' : Later s' s'') : Later s s'' :=
  ⟨h.grows.trans h'.grows, h.reports.trans h'.reports, h.inferred.trans h'.inferred⟩

theorem unify_run_of_none {a b : Ty} {s : State} (loc : Span)
    (h : (s.subst.unify a b).2 = none) :
    ((unify a b loc).run s).2 = { s with subst := (s.subst.unify a b).1 } := by
  simp only [unify, StateT.run_bind, StateT.run_get, StateT.run_modify, pure_bind, h]
  rfl

/-- A mismatch is reported, and what has been made equal before it stays so. -/
theorem unify_run_of_some {a b : Ty} {s : State} (loc : Span) {e : Mismatch}
    (h : (s.subst.unify a b).2 = some e) :
    ∃ r σ, r.isError = true ∧ σ.image? = (s.subst.unify a b).1.image? ∧
      ((unify a b loc).run s).2 = { s with subst := σ, reports := r :: s.reports } := by
  cases e with
  | clash =>
    let σ := (s.subst.unify a b).1
    let r : Report := ⟨.mismatch (σ.zonk a).1 ((σ.zonk a).2.zonk b).1, loc⟩
    refine ⟨r, ((σ.zonk a).2.zonk b).2, rfl, ?_, ?_⟩
    · rw [Subst.image?_zonk, Subst.image?_zonk]
    · simp only [unify, StateT.run_bind, StateT.run_get, StateT.run_modify, pure_bind, h]
      rfl
  | infinite m t =>
    refine ⟨⟨.infiniteType m t, loc⟩, (s.subst.unify a b).1, rfl, rfl, ?_⟩
    simp only [unify, StateT.run_bind, StateT.run_get, StateT.run_modify, pure_bind, h]
    rfl

theorem unify_run_image? (a b : Ty) (loc : Span) (s : State) :
    ((unify a b loc).run s).2.subst.image? = (s.subst.unify a b).1.image? := by
  cases h : (s.subst.unify a b).2 with
  | none => rw [unify_run_of_none loc h]
  | some e =>
    obtain ⟨r, σ, -, hσ, hs⟩ := unify_run_of_some loc h
    rw [hs, hσ]

theorem later_unify (a b : Ty) (loc : Span) (s : State) : Later s ((unify a b loc).run s).2 := by
  have hgrow : s.subst.Grows ((unify a b loc).run s).2.subst := by
    have hsame (t : Ty) : ((unify a b loc).run s).2.subst.apply t = (s.subst.unify a b).1.apply t :=
      congrArg t.substUvars (unify_run_image? a b loc s)
    intro t
    rw [hsame, hsame, s.subst.grows_unify a b t]
  cases h : (s.subst.unify a b).2 with
  | none =>
    rw [unify_run_of_none loc h] at hgrow ⊢
    exact ⟨hgrow, List.suffix_refl _, List.suffix_refl _⟩
  | some e =>
    obtain ⟨r, σ, -, -, hs⟩ := unify_run_of_some loc h
    rw [hs] at hgrow ⊢
    exact ⟨hgrow, List.suffix_cons _ _, List.suffix_refl _⟩

theorem zip_fst_sublist (uvars : List UVar) (tvs : List String) :
    ((uvars.zip tvs).map Prod.fst).Sublist uvars := by
  induction uvars generalizing tvs with
  | nil => exact List.nil_sublist _
  | cons m uvars ih =>
    cases tvs with
    | nil => exact List.nil_sublist _
    | cons tv tvs => exact (ih tvs).cons_cons m

theorem Step.later (h : Step P N s s') : Later s s' := by
  cases h with
  | fresh => exact ⟨.refl _, List.suffix_refl _, List.suffix_refl _⟩
  | zonk t => exact ⟨s.subst.grows_zonk t, List.suffix_refl _, List.suffix_refl _⟩
  | unify loc => exact later_unify _ _ loc s
  | @skolemise uvars tvs hn hu =>
    refine ⟨Subst.grows_fixAll (hn.sublist (zip_fst_sublist uvars tvs)) fun p hp => ?_,
      List.suffix_refl _, List.suffix_refl _⟩
    exact hu p.1 ((zip_fst_sublist uvars tvs).subset (List.mem_map_of_mem hp))
  | note he => exact ⟨.refl _, List.suffix_refl _, List.suffix_cons _ _⟩
  | other hs _ hr hi => exact ⟨hs ▸ .refl _, hr, hi ▸ List.suffix_refl _⟩

theorem Runs.later (h : Runs P N s s') : Later s s' := by
  induction h with
  | refl => exact .refl _
  | tail _ hstep ih => exact ih.trans hstep.later

theorem Runs.noted (h : Runs P N s s') (hs : ∀ e ∈ s.inferred, N e) : ∀ e ∈ s'.inferred, N e := by
  induction h with
  | refl => exact hs
  | @tail s₁ s₂ _ hstep ih =>
    have hunify (a b : Ty) (loc : Span) : ((unify a b loc).run s₁).2.inferred = s₁.inferred := by
      cases h : (s₁.subst.unify a b).2 with
      | none => rw [unify_run_of_none loc h]
      | some e =>
        obtain ⟨r, σ, -, -, hs⟩ := unify_run_of_some loc h
        rw [hs]
    cases hstep with
    | fresh | zonk | skolemise => exact ih
    | unify loc => rwa [hunify]
    | note he => exact List.forall_mem_cons.2 ⟨he, ih⟩
    | other _ _ _ hi => rwa [hi]

theorem Step.weaken {N' : Inferred → Prop} (h : Step P N s s') (hN : ∀ e, N e → N' e) :
    Step P N' s s' := by
  cases h with
  | fresh => exact .fresh s
  | zonk t => exact .zonk s t
  | unify loc ha hb => exact .unify s loc ha hb
  | skolemise tvs hn hu => exact .skolemise s tvs hn hu
  | note he => exact .note s (hN _ he)
  | other hs hu hr hi => exact .other hs hu hr hi

theorem Runs.weaken {N' : Inferred → Prop} (h : Runs P N s s') (hN : ∀ e, N e → N' e) :
    Runs P N' s s' := Relation.ReflTransGen.mono (fun _ _ h => Step.weaken h hN) _ _ h

end TypeLens.Check

namespace TypeLens.Check

open Typed (Ident)

variable {N : Inferred → Prop}

/-- An action is a run from every state, and all it notes has the property `N`. -/
def Evolves {α : Type} (N : Inferred → Prop) (act : CheckM α) : Prop :=
  ∀ s, Runs (fun _ => True) N s (act.run s).2

namespace Evolves

variable {α β : Type} {act : CheckM α}

theorem of_step (h : ∀ s, Step (fun _ => True) N s (act.run s).2) : Evolves N act :=
  fun s => .single (h s)

theorem pure (a : α) : Evolves N (Pure.pure a) := fun _ => .refl

theorem bind {f : α → CheckM β} (h : Evolves N act) (hf : ∀ a, Evolves N (f a)) :
    Evolves N (act >>= f) := fun s => (h s).trans (hf _ _)

theorem bind_of {f : α → CheckM β} {P : α → Prop} (h : Evolves N act) (hP : ∀ s, P (act.run s).1)
    (hf : ∀ a, P a → Evolves N (f a)) : Evolves N (act >>= f) :=
  fun s => (h s).trans (hf _ (hP s) _)

theorem get : Evolves N (MonadState.get : CheckM State) := fun _ => .refl

theorem of_silent (h : Evolves (fun _ => False) act) : Evolves N act :=
  fun s => (h s).weaken fun _ => False.elim

theorem mapM {f : α → CheckM β} {xs : List α} (h : ∀ x ∈ xs, Evolves N (f x)) :
    Evolves N (xs.mapM f) := by
  induction xs with
  | nil => exact pure []
  | cons x xs ih =>
    rw [List.mapM_cons]
    refine bind (h x (List.mem_cons_self ..)) fun b => ?_
    exact bind (ih fun y hy => h y (List.mem_cons_of_mem _ hy)) fun bs => pure _

theorem forM {f : α → CheckM PUnit} {xs : List α} (h : ∀ x ∈ xs, Evolves N (f x)) :
    Evolves N (xs.forM f) := by
  induction xs with
  | nil => exact pure _
  | cons x xs ih =>
    exact bind (h x (List.mem_cons_self ..)) fun _ =>
      ih fun y hy => h y (List.mem_cons_of_mem _ hy)

end Evolves

/-- An action that notes nothing and after which every variable stands for what it stood for
before. -/
structure Quiet {α : Type} (act : CheckM α) : Prop where
  silent : Evolves (fun _ => False) act
  image? : ∀ s, (act.run s).2.subst.image? = s.subst.image?

namespace Quiet

variable {α β : Type} {act : CheckM α}

theorem evolves (h : Quiet act) : Evolves N act := .of_silent h.silent

theorem pure (a : α) : Quiet (Pure.pure a) := ⟨.pure a, fun _ => rfl⟩

theorem bind {f : α → CheckM β} (h : Quiet act) (hf : ∀ a, Quiet (f a)) : Quiet (act >>= f) :=
  ⟨.bind h.silent fun a => (hf a).silent, fun s => ((hf _).image? _).trans (h.image? s)⟩

theorem get : Quiet (MonadState.get : CheckM State) := ⟨.get, fun _ => rfl⟩

/-- An action that leaves types and what is known of them alone. -/
theorem of_other (h : ∀ s, (act.run s).2.subst = s.subst ∧ (act.run s).2.uvars = s.uvars ∧
    s.reports <:+ (act.run s).2.reports ∧ (act.run s).2.inferred = s.inferred) : Quiet act :=
  ⟨.of_step fun s => .other (h s).1 (h s).2.1 (h s).2.2.1 (h s).2.2.2,
    fun s => congrArg Subst.image? (h s).1⟩

end Quiet

/-- Whatever the state, an action returns something with a property. -/
def Returns {α : Type} (act : CheckM α) (P : α → Prop) : Prop := ∀ s, P (act.run s).1

namespace Returns

variable {α β : Type} {act : CheckM α} {P : α → Prop} {Q : β → Prop}

theorem pure {a : α} (h : P a) : Returns (Pure.pure a) P := fun _ => h

theorem bind {f : α → CheckM β} (h : Returns act P) (hf : ∀ a, P a → Returns (f a) Q) :
    Returns (act >>= f) Q := fun s => hf _ (h s) _

theorem skip {f : α → CheckM β} (hf : ∀ a, Returns (f a) Q) : Returns (act >>= f) Q :=
  fun _ => hf _ _

/-- The same for actions that also know what patterns have bound. -/
theorem bindPat {act : PatM α} {f : α → PatM β} {b : Bound} {P : α × Bound → Prop}
    {Q : β × Bound → Prop} (h : Returns (act.run b) P)
    (hf : ∀ r, P r → Returns ((f r.1).run r.2) Q) : Returns ((act >>= f).run b) Q := by
  rw [StateT.run_bind]
  exact h.bind hf

theorem skipPat {act : PatM α} {f : α → PatM β} {b : Bound} {Q : β × Bound → Prop}
    (hf : ∀ a b, Returns ((f a).run b) Q) : Returns ((act >>= f).run b) Q := by
  rw [StateT.run_bind]
  exact .skip fun r => hf r.1 r.2

theorem purePat {a : α} {b : Bound} {P : α × Bound → Prop} (h : P (a, b)) :
    Returns ((Pure.pure a : PatM α).run b) P := .pure h

theorem mapM {f : α → CheckM β} {as : List α} {R : α → β → Prop}
    (h : ∀ a ∈ as, Returns (f a) (R a)) : Returns (as.mapM f) (fun bs => List.Forall₂ R as bs) := by
  induction as with
  | nil => exact .pure .nil
  | cons a as ih =>
    rw [List.mapM_cons]
    refine .bind (h a (List.mem_cons_self ..)) fun b hb => ?_
    exact .bind (ih fun a' ha' => h a' (List.mem_cons_of_mem _ ha')) fun bs hbs =>
      .pure (.cons hb hbs)

end Returns

-- Single actions

theorem quiet_report (p : Problem) (loc : Span) : Quiet (report p loc) :=
  .of_other fun _ => ⟨rfl, rfl, List.suffix_cons _ _, rfl⟩

theorem quiet_reportIf (c : Bool) (p : Problem) (loc : Span) : Quiet (reportIf c p loc) := by
  unfold reportIf
  split
  · exact quiet_report p loc
  · exact .pure _

theorem quiet_freshUnique : Quiet freshUnique :=
  .of_other fun _ => ⟨rfl, rfl, List.suffix_refl _, rfl⟩

theorem quiet_freshHole : Quiet freshHole :=
  .of_other fun _ => ⟨rfl, rfl, List.suffix_refl _, rfl⟩

theorem quiet_solution (hole : Nat) (e : Typed.Evidence) : Quiet (solution hole e) :=
  .of_other fun _ => ⟨rfl, rfl, List.suffix_refl _, rfl⟩

theorem quiet_wanted (f : List Wanted → List Wanted) :
    Quiet (modify fun s => { s with wanted := f s.wanted }) :=
  .of_other fun _ => ⟨rfl, rfl, List.suffix_refl _, rfl⟩

theorem quiet_zonk (t : Ty) : Quiet (zonk t) :=
  ⟨.of_step fun s => .zonk s t, fun s => s.subst.image?_zonk t⟩

theorem evolves_note {e : Inferred} (he : N e) : Evolves N (note e) :=
  .of_step fun s => .note s he

theorem evolves_freshUvar : Evolves N freshUvar := .of_step .fresh

theorem evolves_unify (a b : Ty) (loc : Span) : Evolves N (unify a b loc) :=
  .of_step fun s => .unify s loc trivial trivial

theorem evolves_freshFor {α : Type} (xs : List α) : Evolves N (freshFor xs) := by
  induction xs with
  | nil => exact .pure _
  | cons x xs ih => exact .bind evolves_freshUvar fun t => .bind ih fun ts => .pure _

theorem quiet_wantedFor (loc : Span) (use : String) (ps : List Pred) :
    Quiet (wantedFor loc use ps) := by
  induction ps with
  | nil => exact .pure _
  | cons p ps ih => exact .bind quiet_freshHole fun h => .bind ih fun ws => .pure _

theorem quiet_localName (env : Env) (occ : String) : Quiet (localName env occ) :=
  .bind quiet_freshUnique fun _ => .pure _

theorem quiet_newLocal (env : Env) (occ : String) (t : Ty) : Quiet (newLocal env occ t) :=
  .bind (quiet_localName env occ) fun _ => .pure _

theorem quiet_zonkPred (p : Pred) : Quiet (zonkPred p) :=
  .bind (quiet_zonk p.arg) fun _ => .pure _

-- Patterns

/-- The constraint that a problem is about, with the name whose use raised it. -/
def Problem.constraint? : Problem → Option (Pred × String)
  | .noInstance p use | .cannotDeduce p use | .ambiguousType p use => some (p, use)
  | _ => none

theorem constraint?_of_resolve {g : Globals} {space : Namespace} {role : Role} {occ : String}
    {p : Problem} (h : resolve g space role occ = .error p) : p.constraint? = none := by
  unfold resolve at h
  split at h <;> cases h <;> rfl

theorem constraint?_of_resolveCon {g : Globals} {occ : String} {p : Problem}
    (h : resolveCon g occ = .error p) : p.constraint? = none := by
  unfold resolveCon at h
  cases hr : resolve g .value .dataConstructor occ with
  | error q =>
    rw [hr] at h
    cases h
    exact constraint?_of_resolve hr
  | ok n =>
    rw [hr] at h
    simp only [bind, Except.bind] at h
    split at h <;> cases h
    rfl

theorem isError_of_resolve {g : Globals} {space : Namespace} {role : Role} {occ : String}
    {p : Problem} (h : resolve g space role occ = .error p) : p.severity = .error := by
  unfold resolve at h
  split at h <;> cases h <;> rfl

theorem isError_of_resolveCon {g : Globals} {occ : String} {p : Problem}
    (h : resolveCon g occ = .error p) : p.severity = .error := by
  unfold resolveCon at h
  cases hr : resolve g .value .dataConstructor occ with
  | error q =>
    rw [hr] at h
    cases h
    exact isError_of_resolve hr
  | ok n =>
    rw [hr] at h
    simp only [bind, Except.bind] at h
    split at h <;> cases h
    rfl

/-- A property that actions on types have, also one after the other; problems with constraints are
not among what they report. -/
structure ActionRule (K : ∀ {α : Type}, CheckM α → Prop) : Prop where
  pure {α : Type} (a : α) : K (Pure.pure a : CheckM α)
  bind {α β : Type} {act : CheckM α} {f : α → CheckM β} : K act → (∀ a, K (f a)) → K (act >>= f)
  freshUvar : K freshUvar
  freshUnique : K freshUnique
  unify (a b : Ty) (loc : Span) : K (unify a b loc)
  report {p : Problem} (loc : Span) : p.constraint? = none → K (report p loc)

namespace ActionRule

variable {K : ∀ {α : Type}, CheckM α → Prop} (hK : ActionRule K)
include hK

theorem reportIf (c : Bool) {p : Problem} (loc : Span) (hp : p.constraint? = none) :
    K (reportIf c p loc) := by
  unfold Check.reportIf
  split
  · exact hK.report loc hp
  · exact hK.pure _

theorem freshFor {α : Type} (xs : List α) : K (freshFor xs) := by
  induction xs with
  | nil => exact hK.pure _
  | cons x xs ih => exact hK.bind hK.freshUvar fun t => hK.bind ih fun ts => hK.pure _

theorem localName (env : Env) (occ : String) : K (localName env occ) :=
  hK.bind hK.freshUnique fun _ => hK.pure _

theorem newLocal (env : Env) (occ : String) (t : Ty) : K (newLocal env occ t) :=
  hK.bind (hK.localName env occ) fun _ => hK.pure _

theorem patIdent (env : Env) (group : Bound) (occ : String) (t : Ty) (loc : Span) :
    K (patIdent env group occ t loc) := by
  unfold Check.patIdent
  split
  · exact hK.bind (hK.unify _ _ _) fun _ => hK.pure _
  · exact hK.newLocal _ _ _

/-- The same for actions that also know what patterns have bound. -/
theorem bindPat {α β : Type} {act : PatM α} {f : α → PatM β} (h : ∀ b, K (act.run b))
    (hf : ∀ a b, K ((f a).run b)) (b : Bound) : K ((act >>= f).run b) := by
  rw [StateT.run_bind]
  exact hK.bind (h b) fun r => hf r.1 r.2

theorem purePat {α : Type} (a : α) (b : Bound) : K ((Pure.pure a : PatM α).run b) := hK.pure (a, b)

theorem lift {α : Type} {act : CheckM α} (h : K act) (b : Bound) :
    K ((liftM act : PatM α).run b) := hK.bind h fun a => hK.pure (a, b)

mutual

theorem checkPat (env : Env) (group : Bound) :
    ∀ (p : Surface.Pat) (t : Ty) (b : Bound), K ((checkPat env group p t).run b)
  | .var n l, t => by
    unfold Check.checkPat
    refine hK.bindPat (fun b => hK.pure (b, b)) fun b => ?_
    refine hK.bindPat (hK.lift (hK.reportIf _ l (p := .definedTwice n) rfl)) fun _ => ?_
    refine hK.bindPat (hK.lift (hK.patIdent env group n t l)) fun i => ?_
    exact hK.bindPat (fun b => hK.pure ((), b.put n i)) fun _ => hK.purePat _
  | .wild l, t => by
    unfold Check.checkPat
    exact hK.purePat _
  | .lit v l, t => by
    unfold Check.checkPat
    exact hK.bindPat (hK.lift (hK.unify _ _ _)) fun _ => hK.purePat _
  | .par p l, t => by
    unfold Check.checkPat
    exact hK.bindPat (checkPat env group p t) fun _ => hK.purePat _
  | .con n ps l, t => by
    unfold Check.checkPat
    split
    · next e he =>
      refine hK.bindPat (hK.lift (hK.report _ (constraint?_of_resolveCon he))) fun _ => ?_
      exact hK.bindPat (freshPats env group ps) fun _ => hK.purePat _
    split
    · refine hK.bindPat (hK.lift (hK.freshFor _)) fun ts => ?_
      refine hK.bindPat (hK.lift (hK.unify _ _ _)) fun _ => ?_
      exact hK.bindPat (checkPats env group ps _) fun _ => hK.purePat _
    · exact hK.bindPat (hK.lift (hK.report l (p := .patternArity ..) rfl)) fun _ => hK.purePat _

theorem checkPats (env : Env) (group : Bound) :
    ∀ (ps : List Surface.Pat) (ts : List Ty) (b : Bound), K ((checkPats env group ps ts).run b)
  | p :: ps, t :: ts => by
    unfold Check.checkPats
    refine hK.bindPat (checkPat env group p t) fun _ => ?_
    exact hK.bindPat (checkPats env group ps ts) fun _ => hK.purePat _
  | [], _ => by
    unfold Check.checkPats
    exact hK.purePat _
  | _ :: _, [] => by
    unfold Check.checkPats
    exact hK.purePat _

theorem freshPats (env : Env) (group : Bound) :
    ∀ (ps : List Surface.Pat) (b : Bound), K ((freshPats env group ps).run b)
  | [] => by
    unfold Check.freshPats
    exact hK.purePat _
  | p :: ps => by
    unfold Check.freshPats
    refine hK.bindPat (hK.lift hK.freshUvar) fun t => ?_
    exact hK.bindPat (checkPat env group p t) fun _ => freshPats env group ps

end

end ActionRule

theorem evolves_rule : ActionRule (Evolves N) where
  pure := .pure
  bind := .bind
  freshUvar := evolves_freshUvar
  freshUnique := quiet_freshUnique.evolves
  unify := evolves_unify
  report loc _ := (quiet_report _ loc).evolves

-- Constraints

theorem quiet_solveOne (env : Env) (sc : Scoping) (acc : Solved) (w : Wanted) :
    Quiet (solveOne env sc acc w) := by
  unfold solveOne
  refine .bind (quiet_zonkPred _) fun p => .bind .get fun s => ?_
  split
  · refine .bind (quiet_wantedFor _ _ _) fun goals => ?_
    exact .bind (quiet_solution _ _) fun _ => .pure _
  · exact .bind (quiet_solution _ _) fun _ => .pure _
  · split
    · exact .bind (quiet_solution _ _) fun _ => .pure _
    · refine .bind (quiet_localName _ _) fun n => ?_
      exact .bind (quiet_solution _ _) fun _ => .pure _
  · exact .pure _
  · exact .bind (quiet_report _ _) fun _ => .pure _
  · exact .bind (quiet_report _ _) fun _ => .pure _
  · exact .bind (quiet_report _ _) fun _ => .pure _

theorem quiet_solveRound (env : Env) (sc : Scoping) (acc : Solved) (ws : List Wanted) :
    Quiet (solveRound env sc acc ws) := by
  induction ws generalizing acc with
  | nil => exact .pure _
  | cons w ws ih =>
    exact .bind (quiet_solveOne env sc acc w) fun r => .bind (ih r.1) fun r' => .pure _

theorem quiet_solveRounds (env : Env) (sc : Scoping) (n : Nat) (acc : Solved)
    (ws : List Wanted) : Quiet (solveRounds env sc n acc ws) := by
  induction n generalizing acc ws with
  | zero => exact .pure _
  | succ n ih => exact .bind (quiet_solveRound env sc acc ws) fun r => ih r.1 r.2

/-- Solving constraints makes no types equal. -/
theorem quiet_solve (env : Env) (sc : Scoping) (ws : List Wanted) : Quiet (solve env sc ws) :=
  .bind .get fun _ => .bind (quiet_solveRounds _ _ _ _ _) fun r =>
    .bind (quiet_wanted (· ++ r.deferred)) fun _ => .pure _

-- Names

/-- An occurrence has a type for each quantified variable and a dictionary for each constraint, and
its type is that of the name at these types. -/
def WellShaped : Inferred → Prop
  | (.inst h ts ds _, t) => ts.length = h.scheme.tvs.length ∧ ds.length = h.scheme.preds.length ∧
      t = h.scheme.body.substVars (assign h.scheme.tvs ts)
  | _ => True

theorem length_freshFor {α : Type} (xs : List α) (s : State) :
    ((freshFor xs).run s).1.length = xs.length := by
  induction xs generalizing s with
  | nil => rfl
  | cons x xs ih => exact congrArg Nat.succ (ih _)

theorem length_wantedFor (loc : Span) (use : String) (ps : List Pred) (s : State) :
    ((wantedFor loc use ps).run s).1.length = ps.length := by
  induction ps generalizing s with
  | nil => rfl
  | cons p ps ih => exact congrArg Nat.succ (ih _)

-- Binding groups

theorem evolves_groupIdents {nameOf : String → CheckM Name} (hn : ∀ occ, Quiet (nameOf occ))
    (acc : Bound) (bs : List (String × Span)) : Evolves N (groupIdents nameOf acc bs) := by
  induction bs generalizing acc with
  | nil => exact .pure _
  | cons b bs ih =>
    unfold groupIdents
    split
    · exact ih acc
    · exact .bind (hn _).evolves fun n => .bind evolves_freshUvar fun t => ih _

/-- A group has an identifier for each name that it binds, and no others. -/
structure Identifies (ys : List (String × Span)) (ids : Bound) : Prop where
  self : ∀ p ∈ ids, ids.get? p.1 = some p.2
  binder : ∀ p ∈ ids, ∃ y ∈ ys, y.1 = p.1
  bound : ∀ y ∈ ys, ∃ i, ids.get? y.1 = some i

theorem returns_identifies_after {nameOf : String → CheckM Name} {ys done : List (String × Span)}
    {acc : Bound} (h : Identifies done acc) :
    Returns (groupIdents nameOf acc ys) (Identifies (done ++ ys)) := by
  induction ys generalizing done acc with
  | nil => exact .pure ((List.append_nil done).symm ▸ h)
  | cons y ys ih =>
    rw [List.append_cons]
    unfold groupIdents
    split
    · next hy =>
      refine ih ⟨h.self, fun p hp => ?_, ?_⟩
      · obtain ⟨y', hy', heq⟩ := h.binder p hp
        exact ⟨y', List.mem_append_left _ hy', heq⟩
      · exact List.forall_mem_append.2
          ⟨h.bound, List.forall_mem_singleton.2 (Option.isSome_iff_exists.1 hy)⟩
    · next hy =>
      refine .skip fun n => .skip fun t => ih ?_
      have hnone : acc.get? y.1 = none := by simpa [Table.contains] using hy
      refine ⟨?_, ?_, ?_⟩
      · refine Table.forall_mem_put (fun p hp => ?_) (Table.get?_put_self ..)
        rw [Table.get?_put_of_ne fun heq => ?_]
        · exact h.self p hp
        · rw [heq, h.self p hp] at hnone
          cases hnone
      · refine Table.forall_mem_put (fun p hp => ?_)
          ⟨y, List.mem_append_right _ (List.mem_singleton_self _), rfl⟩
        obtain ⟨y', hy', heq⟩ := h.binder p hp
        exact ⟨y', List.mem_append_left _ hy', heq⟩
      · have hput (occ : String) (h : y.1 = occ ∨ ∃ i, acc.get? occ = some i) :
            ∃ i, (acc.put y.1 ⟨n, .mono t⟩).get? occ = some i :=
          Option.isSome_iff_exists.1 (Table.contains_put.2
            (h.imp_right fun h => Option.isSome_iff_exists.2 h))
        refine List.forall_mem_append.2 ⟨fun y' hy' => hput _ (.inr (h.bound y' hy')), ?_⟩
        exact List.forall_mem_singleton.2 (hput _ (.inl rfl))

theorem returns_identifies (nameOf : String → CheckM Name) (ys : List (String × Span)) :
    Returns (groupIdents nameOf [] ys) (Identifies ys) :=
  have hempty : Identifies [] [] := ⟨by simp, by simp, by simp⟩
  returns_identifies_after hempty

theorem identifies_openGroup (env : Env) (nameOf : String → CheckM Name) (js : List Job) :
    Returns (openGroup env nameOf js) fun o => Identifies (js.flatMap Job.binders) o.monos :=
  .skip fun _ => .bind (returns_identifies _ _) fun _ hids => .skip fun _ => .pure hids

theorem nodup_eraseDups {α : Type} [DecidableEq α] (ms : List α) : ms.eraseDups.Nodup := by
  induction hn : ms.length using Nat.strongRecOn generalizing ms with
  | ind n ih =>
    cases ms with
    | nil => exact List.nodup_nil
    | cons m ms =>
      rw [List.eraseDups_cons, List.nodup_cons, List.mem_eraseDups]
      have hlt : (ms.filter fun k => !k == m).length < n := by
        rw [← hn]
        exact Nat.lt_succ_of_le (List.length_filter_le _ _)
      exact ⟨by simp, ih _ hlt _ rfl⟩

theorem OpenGroup.image?_of_mem_uvars {g : OpenGroup} {σ : Subst} {m : UVar}
    (h : m ∈ g.uvars σ) : σ.image? m = none := by
  rw [OpenGroup.uvars, List.mem_eraseDups, List.mem_filter, uvarsOf, List.mem_flatMap] at h
  obtain ⟨⟨i, -, hm⟩, -⟩ := h
  exact Subst.image?_of_mem_apply hm

theorem evolves_closeGroup (env : Env) (g : OpenGroup) (loc : Span) :
    Evolves N (closeGroup env g loc) := by
  intro s
  let sc : Scoping := ⟨g.uvars s.subst, g.outer⟩
  let s' := ((solve env sc g.raised).run s).2
  let tvs := freshTyvars env.rigid (g.uvars s.subst).length
  have hsolve : Runs (fun _ => True) N s s' := (quiet_solve env sc g.raised).evolves s
  -- Solving gives no variable an image, so those of the group still stand for themselves.
  refine hsolve.tail (.skolemise s' tvs (nodup_eraseDups _) fun m hm => ?_)
  rw [(quiet_solve env sc g.raised).image? s]
  exact OpenGroup.image?_of_mem_uvars hm

theorem closeGroup_fst (env : Env) (o : OpenGroup) (loc : Span) (s : State) : ∃ (tvs : List String)
    (poly : Ident → Ident), (∀ i, (poly i).name = i.name) ∧ ((closeGroup env o loc).run s).1 =
      let polys := o.monos.map fun m => (m.1, poly m.2)
      (.abs tvs ((solve env ⟨o.uvars s.subst, o.outer⟩ o.raised).run s).1
        ((polys.zip o.monos).map fun p => ⟨p.1.2, p.2.2⟩) o.binds loc, polys) :=
  ⟨_, generalise _ _ _, fun _ => rfl, rfl⟩

theorem quiet_reportRepeated (seen : List String) (bs : List (String × Span)) :
    Quiet (reportRepeated seen bs) := by
  induction bs generalizing seen with
  | nil => exact .pure _
  | cons b bs ih => exact .bind (quiet_reportIf _ _ _) fun _ => ih _

theorem returns_inferGroups (env : Env) (gs : List (List Job)) :
    Returns (inferGroups env gs) (·.2.globals = env.globals) := by
  induction gs generalizing env with
  | nil => exact .pure rfl
  | cons js gs ih => exact .skip fun r => .bind (ih (env.extend r.2)) fun r' hr' => .pure hr'

/-- Local bindings leave the top level as it is. -/
theorem returns_inferLocals (env : Env) (js : List (Surface.Dependencies × Job)) :
    Returns (inferLocals env js) (·.2.globals = env.globals) :=
  .skip fun _ => returns_inferGroups env _

end TypeLens.Check
