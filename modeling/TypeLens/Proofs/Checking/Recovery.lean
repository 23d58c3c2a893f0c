import TypeLens.Proofs.Checking.Inference
import TypeLens.Proofs.Lowering.Types

/-!
Types that are read off core terms against those that checking found. They agree for all expressions
if no occurrence of a polymorphic name captures a rigid variable, and only then.
-/

namespace TypeLens

namespace Check

open TypeLens.Core (LowersAt Functional)
open Typed (Answers)

/-- Where checking ends: what is known then, what was noted, and what lowering knows. -/
structure Ending where
  answers : Answers
  inferred : List Inferred
  core : Core.Context

namespace Ending

variable (x : Ending)

/-- In an occurrence of a name a unification variable in the type of the name stands, in the end,
for a type with a rigid variable that the occurrence replaces by another type. -/
def Replaces (h : Typed.Head) (ts : List Ty) : Prop :=
  ∃ p ∈ h.scheme.body.scopedUvars [], ∃ v ∈ (x.answers.ty (.uvar p.1)).varOccurrences p.2,
    ∃ t ∈ assign h.scheme.tvs ts v, x.answers.ty t ≠ .var v

instance decidableReplaces (h : Typed.Head) (ts : List Ty) : Decidable (x.Replaces h ts) :=
  inferInstanceAs (Decidable (∃ p ∈ _, ∃ v ∈ _, ∃ t ∈ _, _))

/-- An occurrence that has a core term replaces a rigid variable that is not its own. -/
def Captures : Typed.Expr → Prop
  | .inst h ts ds _ => (Core.Lower.holes (ds.map x.answers.hole)).isOk ∧ x.Replaces h ts
  | _ => False

instance decidableCaptures : DecidablePred x.Captures
  | .inst .. => inferInstanceAs (Decidable (_ ∧ _))
  | .head .. | .lit .. | .app .. | .opApp .. | .lambda .. | .letIn .. | .ifThenElse .. | .caseOf ..
  | .list .. | .par .. => inferInstanceAs (Decidable False)

/-- No occurrence captures a variable. -/
def Sound : Prop := ∀ e ∈ x.inferred, ¬ x.Captures e.1

instance decidableSound : Decidable x.Sound := inferInstanceAs (Decidable (∀ e ∈ _, _))

variable {x} {h : Typed.Head} {ts : List Ty} {ds : List Typed.Hole} {l : Span} {t : Ty}

theorem type_of_run_occurrence (hw : WellShaped (.inst h ts ds l, t)) {n : Nat}
    {r : Core.Term × Nat}
    (hr : (Core.Lower.expr x.core (x.answers.expr (.inst h ts ds l))).run n = .ok r) :
    r.1.type = .ok ((x.answers.ty h.scheme.body).substVars
      fun v => (assign h.scheme.tvs ts v).map x.answers.ty) := by
  obtain ⟨hts, hds, -⟩ := hw
  have hhead : (x.answers.head h).scheme = h.scheme.substUvars x.answers.images.image? := by
    cases h with
    | var | con => rfl
  have hat : (fun v => (assign h.scheme.tvs ts v).map x.answers.ty) =
      assign h.scheme.tvs (ts.map x.answers.ty) :=
    funext fun v => (assign_map _ _ _ _).symm
  rw [hat]
  have hinst : r.1.type = .ok ((x.answers.head h).scheme.body.substVars
      (assign (x.answers.head h).scheme.tvs (ts.map x.answers.ty))) := by
    refine Core.type_of_run_inst ?_ ?_ hr
    · rw [hhead, List.length_map, hts]
      rfl
    · rw [hhead, List.length_map, hds]
      exact (List.length_map _).symm
  rw [hhead] at hinst
  exact hinst

theorem substUvars_substVars_eq_iff (hw : WellShaped (.inst h ts ds l, t)) :
    (x.answers.ty h.scheme.body).substVars
        (fun v => (assign h.scheme.tvs ts v).map x.answers.ty) = x.answers.ty t ↔
      ¬ x.Replaces h ts := by
  obtain ⟨-, -, rfl⟩ := hw
  let f := x.answers.images.image?
  let g := assign h.scheme.tvs ts
  have hsame : (h.scheme.body.substUvars f).substVars (fun v => (g v).map (·.substUvars f)) =
      (h.scheme.body.substVars g).substUvars f ↔
        ∀ p ∈ h.scheme.body.scopedUvars [], Ty.Untouched f g p :=
    Ty.substUvars_substVars_eq_iff
  refine hsame.trans ?_
  constructor
  · rintro hu ⟨p, hp, v, hv, t, ht, hne⟩
    have ht : g v = some t := ht
    have hv := hu p hp v hv
    simp only [ht, Option.map_some, reduceCtorEq, false_or, Option.some.injEq] at hv
    exact hne hv
  · intro hno p hp v hv
    cases hg : g v with
    | none => exact .inl rfl
    | some t =>
      by_cases he : x.answers.ty t = .var v
      · exact .inr (congrArg some he)
      · exact absurd ⟨p, hp, v, hv, t, hg, he⟩ hno

theorem lowersAt_occurrence (hw : WellShaped (.inst h ts ds l, t))
    (hno : ¬ x.Captures (.inst h ts ds l)) :
    LowersAt (· = ·) x.core (x.answers.expr (.inst h ts ds l)) (x.answers.ty t) := by
  intro n r hr
  have hargs : (Core.Lower.holes (ds.map x.answers.hole)).isOk := by
    simp only [Answers.expr, Core.Lower.expr] at hr
    obtain ⟨args, hargs, -⟩ := Core.run_bind_eq_ok.1 hr
    rw [Core.run_lift_eq_ok hargs]
    rfl
  rw [Core.hasType_eq_iff, type_of_run_occurrence hw hr]
  exact congrArg _ ((substUvars_substVars_eq_iff hw).2 fun h => hno ⟨hargs, h⟩)

/-- An occurrence that captures a variable has a core term of another type. -/
theorem exists_type_ne_of_captures (hw : WellShaped (.inst h ts ds l, t))
    (hcap : x.Captures (.inst h ts ds l)) :
    ∃ term, Core.lowerExpr x.core (x.answers.expr (.inst h ts ds l)) = .ok term ∧
      term.type ≠ .ok (x.answers.ty t) := by
  obtain ⟨hok, hrep⟩ := hcap
  obtain ⟨args, hargs⟩ : ∃ args, Core.Lower.holes (ds.map x.answers.hole) = .ok args := by
    cases h : Core.Lower.holes (ds.map x.answers.hole) with
    | error e => simp [h, Except.isOk, Except.toBool] at hok
    | ok args => exact ⟨args, rfl⟩
  obtain ⟨term, hterm⟩ : ∃ term,
      (Core.Lower.expr x.core (x.answers.expr (.inst h ts ds l))).run 0 = .ok (term, 0) := by
    simp only [Answers.expr, Core.Lower.expr, hargs]
    exact ⟨_, rfl⟩
  have hty := type_of_run_occurrence hw hterm
  refine ⟨term, ?_, fun he => ?_⟩
  · simp only [Core.lowerExpr, hterm, hty, bind, Except.bind, pure, Except.pure]
  · rw [hty] at he
    exact (substUvars_substVars_eq_iff hw).1 (Except.ok.inj he) hrep

-- Closure

theorem ty_fns (ts : List Ty) (t : Ty) :
    x.answers.ty (.fns ts t) = .fns (ts.map x.answers.ty) (x.answers.ty t) :=
  Ty.substUvars_fns _ ts t

variable {R : Ty → Ty → Prop}

theorem lowersAt_monoHead (hR : Functional R) (hm : h.scheme.isMono = true) (l : Span) :
    LowersAt R x.core (x.answers.expr (.head h l)) (x.answers.ty h.scheme.body) := by
  have hhead : (x.answers.head h).scheme = h.scheme.substUvars x.answers.images.image? := by
    cases h with
    | var | con => rfl
  have hmono : (x.answers.head h).scheme.isMono = true := by
    rw [hhead]
    simpa [Scheme.isMono, Scheme.substUvars] using hm
  have hlow := Core.lowersAt_head (c := x.core) hR hmono l
  rw [hhead] at hlow
  exact hlow

theorem rhs_rows (ms : List Typed.Match) :
    (x.answers.rows ms).map (·.rhs) = ms.map fun m => x.answers.expr m.rhs := by
  induction ms with
  | nil => rfl
  | cons m ms ih =>
    obtain ⟨ps, e, l⟩ := m
    exact congrArg (x.answers.expr e :: ·) ih

theorem lowersAt_rows {ms : List Typed.Match}
    (h : ∀ m ∈ ms, LowersAt R x.core (x.answers.expr m.rhs) (x.answers.ty t)) :
    ∀ m ∈ x.answers.rows ms, LowersAt R x.core m.rhs (x.answers.ty t) := by
  intro m hm
  have hm : m.rhs ∈ (x.answers.rows ms).map (·.rhs) := List.mem_map_of_mem hm
  rw [rhs_rows] at hm
  obtain ⟨m', hm', heq⟩ := List.mem_map.1 hm
  rw [← heq]
  exact h m' hm'

theorem rows_eq_nil_iff {ms : List Typed.Match} : x.answers.rows ms = [] ↔ ms = [] := by
  have hrhs := rhs_rows (x := x) ms
  constructor
  · intro h
    rw [h] at hrhs
    exact List.map_eq_nil_iff.1 hrhs.symm
  · rintro rfl
    rfl

variable (x R) in
/-- In cases without alternatives, what stands for failure has the type of the case. -/
def Falls (e : Typed.Expr) : Prop :=
  ∀ s ts t l, .expr (.caseOf s (.mk [] ts t) l) ∈ e.nodes →
    (Core.Lower.patError x.core (x.answers.ty t)).HasType R (x.answers.ty t)

theorem Falls.of_subset {e e' : Typed.Expr} (h : x.Falls R e') (hs : e.nodes ⊆ e'.nodes) :
    x.Falls R e := fun s ts t l hmem => h s ts t l (hs hmem)

theorem nodes_subset_of_mem_rows {g : Typed.MatchGroup} {m : Typed.Match} (hm : m ∈ g.rows) :
    m.rhs.nodes ⊆ g.nodes := by
  obtain ⟨ms, ts, t⟩ := g
  intro n hn
  rw [Typed.MatchGroup.nodes]
  exact List.mem_cons_of_mem _ (Typed.mem_nodesOf_rows.2 ⟨m, hm, .inr (.inr hn)⟩)

variable (x R) in
/-- The core term of an expression has the type that was found, up to a relation; the constructors
of patterns satisfy `K`. -/
def finish (K : DataCon → Prop) : Finish where
  subst := x.answers.images
  inferred := x.inferred
  Holds e t := x.Falls R e → LowersAt R x.core (x.answers.expr e) (x.answers.ty t)
  Constructor := K
  Neat := False

theorem finish_closed (hR : Functional R) {K : DataCon → Prop}
    (hcons : ∀ d, x.core.entity? Builtin.consCon = some (.dataCon d) →
      d.scheme = ⟨["a"], [], .fns [.var "a", .list (.var "a")] (.list (.var "a"))⟩)
    (hnil : ∀ d, x.core.entity? Builtin.nilCon = some (.dataCon d) →
      d.scheme = ⟨["a"], [], .list (.var "a")⟩)
    (hinst : ∀ h ts ds l t, (.inst h ts ds l, t) ∈ x.inferred → WellShaped (.inst h ts ds l, t) →
      LowersAt R x.core (x.answers.expr (.inst h ts ds l)) (x.answers.ty t)) :
    (x.finish R K).Closed where
  cast {e t u} he htu hf := by
    have htu : x.answers.ty t = x.answers.ty u := htu
    rw [← htu]
    exact he hf
  head l hm _ := lowersAt_monoHead hR hm l
  inst hmem hw _ := hinst _ _ _ _ _ hmem hw
  lit v l _ := by
    have hty : x.answers.ty v.ty = v.ty := by cases v <;> rfl
    rw [hty]
    exact Core.lowersAt_lit hR v l
  app l hf hfalls := by
    refine Core.lowersAt_app hR (hf (hfalls.of_subset fun n hn => ?_))
    rw [Typed.Expr.nodes]
    exact List.mem_cons_of_mem _ (List.mem_append_left _ hn)
  opApp l hop hfalls := by
    refine Core.lowersAt_opApp hR (hop (hfalls.of_subset fun n hn => ?_))
    rw [Typed.Expr.nodes]
    exact List.mem_cons_of_mem _ (List.mem_append_left _ (List.mem_append_right _ hn))
  lambda {g} l hne hg hfalls := by
    have hms := lowersAt_rows fun m hm => hg m hm (hfalls.of_subset fun n hn => by
      rw [Typed.Expr.nodes]
      exact List.mem_cons_of_mem _ (nodes_subset_of_mem_rows hm hn))
    obtain ⟨ms, ts, t⟩ := g
    have hty : x.answers.ty (Typed.MatchGroup.ty (.mk ms ts t)) =
        .fns (ts.map x.answers.ty) (x.answers.ty t) := ty_fns ts t
    rw [hty]
    exact Core.lowersAt_lambda hR (fun h => hne (rows_eq_nil_iff.1 h)) hms
  letIn l he hfalls := by
    refine Core.lowersAt_letIn (he (hfalls.of_subset fun n hn => ?_))
    rw [Typed.Expr.nodes]
    exact List.mem_cons_of_mem _ (List.mem_append_right _ hn)
  ifThenElse l hy hfalls := by
    refine Core.lowersAt_ifThenElse (hy (hfalls.of_subset fun n hn => ?_))
    rw [Typed.Expr.nodes]
    exact List.mem_cons_of_mem _ (List.mem_append_left _ (List.mem_append_right _ hn))
  caseOf {s g} l hg hfalls := by
    have hms := lowersAt_rows fun m hm => hg m hm (hfalls.of_subset fun n hn => by
      rw [Typed.Expr.nodes]
      exact List.mem_cons_of_mem _ (List.mem_append_right _ (nodes_subset_of_mem_rows hm hn)))
    obtain ⟨ms, ts, t⟩ := g
    refine Core.lowersAt_caseOf (fun h => ?_) hms
    obtain rfl := rows_eq_nil_iff.1 h
    refine hfalls s ts t l ?_
    rw [Typed.Expr.nodes]
    exact List.mem_cons_self ..
  list es t l _ := Core.lowersAt_list hR hcons hnil
  par l he hfalls := by
    refine Core.lowersAt_par (he (hfalls.of_subset fun n hn => ?_))
    rw [Typed.Expr.nodes]
    exact List.mem_cons_of_mem _ hn

end Ending

end Check

end TypeLens
