import TypeLens.Proofs.Checking.Closure
import TypeLens.Proofs.Checking.FormedModules
import TypeLens.Proofs.Lowering.Failure

/-!
Types of dictionaries. The core term of the evidence for a constraint has the constraint as its type,
since the type constructor of an instance has one argument for each variable of the instance.
-/

namespace TypeLens

/-- Distinct variables stand for the types in their order. -/
theorem map_substVars_assign {names : List String} (hnodup : names.Nodup) {ts : List Ty}
    (hlength : ts.length = names.length) :
    (names.map Ty.var).map (·.substVars (assign names ts)) = ts := by
  induction names generalizing ts with
  | nil => exact (List.length_eq_zero_iff.1 hlength).symm
  | cons n names ih =>
    obtain ⟨hn, hnodup⟩ := List.nodup_cons.1 hnodup
    cases ts with
    | nil => cases hlength
    | cons t ts =>
      rw [List.map_cons, List.map_cons]
      refine congr (congrArg _ ?_) (Eq.trans ?_ (ih hnodup (Nat.succ.inj hlength)))
      · simp [Ty.substVars, assign_cons, assign_eq_none hn]
      · refine List.map_congr_left fun u hu => ?_
        obtain ⟨v, hv, rfl⟩ := List.mem_map.1 hu
        have hne : v ≠ n := fun h => hn (h ▸ hv)
        simp [Ty.substVars, assign_cons, hne]

theorem Ty.substVars_conApp (f : String → Option Ty) (c : Name) (ts : List Ty) :
    (conApp c ts).substVars f = conApp c (ts.map (·.substVars f)) := by
  have happs (t : Ty) : (apps t ts).substVars f = apps (t.substVars f) (ts.map (·.substVars f)) := by
    induction ts generalizing t with
    | nil => rfl
    | cons u ts ih => exact ih (.app t u)
  exact happs (.con c)

theorem Ty.substUvars_conApp (f : UVar → Option Ty) (c : Name) (ts : List Ty) :
    (conApp c ts).substUvars f = conApp c (ts.map (·.substUvars f)) := by
  have happs (t : Ty) :
      (apps t ts).substUvars f = apps (t.substUvars f) (ts.map (·.substUvars f)) := by
    induction ts generalizing t with
    | nil => rfl
    | cons u ts ih => exact ih (.app t u)
  exact happs (.con c)

/-- The head of an instance at types. -/
theorem Instance.substVars_headTy {i : Instance} (hi : i.WellFormed) {ts : List Ty}
    (hlength : ts.length = i.tyvars.length) :
    i.headTy.substVars (assign i.tyvars ts) = .conApp i.head ts := by
  rw [headTy, Ty.substVars_conApp, map_substVars_assign hi.nodup hlength]

namespace Typed

mutual

/-- The holes in evidence, in whatever depth. -/
def Evidence.holes : Evidence → List Hole
  | .byInstance _ _ hs => Hole.holesOf hs
  | .byParam _ => []

/-- A hole with all that are in its evidence. -/
def Hole.holes : Hole → List Hole
  | .unsolved v p => [.unsolved v p]
  | .solved p e => .solved p e :: e.holes

def Hole.holesOf : List Hole → List Hole
  | [] => []
  | h :: hs => h.holes ++ Hole.holesOf hs

end

theorem Hole.holesOf_eq (hs : List Hole) : holesOf hs = hs.flatMap holes := by
  induction hs with
  | nil => rw [holesOf, List.flatMap_nil]
  | cons h hs ih => rw [holesOf, ih, List.flatMap_cons]

theorem Evidence.holes_eq (e : Evidence) : e.holes = e.args.flatMap Hole.holes := by
  cases e with
  | byInstance i ts hs => rw [holes, args, Hole.holesOf_eq]
  | byParam d => rw [holes, args, List.flatMap_nil]

/-- A hole is open, or its evidence is a solution for the constraint that it was made for. -/
inductive Hole.Filled (σ : Subst) (goals : List Pred) (sols : List (Nat × Evidence)) : Hole → Prop
  | unsolved (v : Nat) (p : Pred) : Filled σ goals sols (.unsolved v p)
  | solved {v : Nat} {p : Pred} {e : Evidence} {a : Answers} (hp : goals[v]? = some p)
      (he : (v, e) ∈ sols) (ha : a.images = σ) :
      Filled σ goals sols (.solved (σ.applyPred p) (a.evidenceOf e))

variable {σ : Subst} {goals : List Pred}

theorem Hole.Filled.mono {sols sols' : List (Nat × Evidence)} (hsub : sols ⊆ sols') {h : Hole}
    (hh : h.Filled σ goals sols) : h.Filled σ goals sols' := by
  cases hh with
  | unsolved v p => exact .unsolved v p
  | solved hp he ha => exact .solved hp (hsub he) ha

/-- What is in the evidence of a hole was filled before. -/
theorem filled_of_mem_holes {sols : List (Nat × Evidence)}
    (hargs : ∀ x ∈ sols, ∀ d ∈ x.2.args, ∃ v p, d = .unsolved v p ∧ goals[v]? = some p)
    {v : Nat} {p : Pred} (hp : goals[v]? = some p) :
    ∀ h ∈ ((Answers.ofSolutions σ sols).hole (.unsolved v p)).holes, h.Filled σ goals sols := by
  induction sols using List.reverseRecOn generalizing v p with
  | nil =>
    intro h hh
    rw [List.mem_singleton.1 hh]
    exact .unsolved ..
  | append_singleton sols x ih =>
    obtain ⟨hargs, hx⟩ := List.forall_mem_append.1 hargs
    have ih {v : Nat} {p : Pred} (hp : goals[v]? = some p) := ih hargs hp
    have hsub : sols ⊆ sols ++ [x] := List.subset_append_left ..
    have himages := images_ofSolutions σ sols
    rw [ofSolutions_concat]
    generalize Answers.ofSolutions σ sols = a at ih himages ⊢
    intro h hh
    by_cases hv : x.1 = v
    · have hhole : (⟨σ, (x.1, a.evidenceOf x.2) :: a.evidence⟩ : Answers).hole (.unsolved v p) =
          .solved (σ.applyPred p) (a.evidenceOf x.2) := by
        simp [Answers.hole, Table.get?, hv, Answers.pred]
      rw [hhole, Hole.holes, List.mem_cons, Evidence.holes_eq] at hh
      rcases hh with rfl | hh
      · exact .solved hp (hv ▸ List.mem_append_right _ (List.mem_singleton_self _)) himages
      · obtain ⟨d, hd, hh⟩ := List.mem_flatMap.1 hh
        obtain ⟨d', hd', rfl⟩ : ∃ d' ∈ x.2.args, a.hole d' = d := by
          obtain ⟨v, e⟩ := x
          cases e with
          | byInstance i ts hs => exact List.mem_map.1 hd
          | byParam d => cases hd
        obtain ⟨u, q, rfl, hq⟩ := hx x (List.mem_singleton_self _) d' hd'
        exact (ih hq h hh).mono hsub
    · have hhole : (⟨σ, (x.1, a.evidenceOf x.2) :: a.evidence⟩ : Answers).hole (.unsolved v p) =
          a.hole (.unsolved v p) := by
        simp [Answers.hole, Table.get?, hv, Answers.pred, himages]
      rw [hhole] at hh
      exact (ih hp h hh).mono hsub

end Typed

namespace Check

open Typed (Evidence Hole Answers)

/-- Evidence that fits a constraint has a term of the constraint's type, if a type constructor has
one number of arguments only. -/
theorem type_evidence {R : Arities} (hR : ∀ c k n, R c k → R c n → k = n) {σ : Subst} {p : Pred}
    {e : Evidence} (he : Fits R σ p e) {a : Answers} (ha : a.images = σ) {t : Core.Term}
    (ht : Core.Lower.evidence (a.evidenceOf e) = .ok t) : t.type = .ok (σ.applyPred p).ty := by
  cases he with
  | @byParam d hd =>
    obtain rfl := Except.ok.inj ht
    rw [Answers.dictVar, Answers.pred, ha, hd]
    rfl
  | @byInstance i ts hs hi hts hcls harg hcontext =>
    obtain ⟨args, hargs, rfl⟩ : ∃ args, Core.Lower.holes (hs.map a.hole) = .ok args ∧
        args.foldl .app (Core.Lower.atTypes (.var i.name i.dictTy) (ts.map a.ty)) = t := by
      rw [Answers.evidenceOf, Core.Lower.evidence] at ht
      cases hargs : Core.Lower.holes (hs.map a.hole) with
      | error err => rw [hargs] at ht; cases ht
      | ok args =>
        rw [hargs] at ht
        exact ⟨args, rfl, Except.ok.inj ht⟩
    have hlength : (ts.map a.ty).length = i.tyvars.length := by
      rw [List.length_map]
      exact hR _ _ _ hts hi.head
    have hcount : args.length = i.context.length := by
      rw [Core.length_of_holes hargs, List.length_map]
      simpa using congrArg List.length hcontext
    have htype := Core.type_inst (h := .var ⟨i.name, i.tyvars, i.context, .pred i.cls i.headTy⟩)
      hlength hcount
    refine htype.trans (congrArg _ ?_)
    have hhead : i.headTy.substVars (assign i.tyvars (ts.map a.ty)) = .conApp i.head (ts.map a.ty) :=
      Instance.substVars_headTy hi.wellFormed hlength
    have harg : σ.apply p.arg = .conApp i.head (ts.map a.ty) := by
      have hty : a.ty = σ.apply := by
        funext u
        rw [Answers.ty, ha]
      rw [harg, hty, Subst.apply_eq]
      exact Ty.substUvars_conApp ..
    calc (Ty.pred i.cls i.headTy).substVars (assign i.tyvars (ts.map a.ty))
        = .pred i.cls (.conApp i.head (ts.map a.ty)) := congrArg (Ty.pred i.cls) hhead
      _ = .pred p.cls (σ.apply p.arg) := by rw [hcls, harg]

/-- The types that a module declares have the numbers of variables that `ar` says, and the list
constructor, whose arguments are not counted, is always written with one. -/
structure Obeys (ar : Name → Nat) (m : Surface.Module) : Prop where
  data : ∀ d, .data d ∈ m.decls → ar (topName m.name .type d.name) = d.tyvars.length
  list : ∀ p ∈ m.heads, p.1 = "[]" → p.2 = 1

/-- The arguments that a type constructor has by `ar`. -/
def Arities.exactly (ar : Name → Nat) : Arities := fun c n => n = ar c

variable {ar : Name → Nat} {m : Surface.Module} {imports : List Exports} {checked : Checked}

theorem Obeys.permits (h : Obeys ar m) (hR : (Arities.exactly ar).Builtin) :
    Permits (Arities.exactly ar) False m where
  builtin := hR
  data d hd := (h.data d hd).symm
  cls _ _ := ⟨_, rfl⟩
  list p hp hlist := (h.list p hp hlist).trans hR.list
  loose := False.elim
  missing := False.elim

/-- What a module exports that was accepted and obeys `ar`, and so does all that it imports. -/
inductive Conforms (ar : Name → Nat) : Exports → Prop
  | intro {m : Surface.Module} {imports : List Exports} {checked : Checked}
      (hi : ∀ x ∈ imports, Conforms ar x) (h : Obeys ar m) (hm : module m imports = .ok checked) :
      Conforms ar checked.exports

theorem trusted_of_accepted
    (hno : ∀ r ∈ (elaborate m imports).state.reports, r.isError = false) :
    (declared m imports).2.Trusted False :=
  .inr fun ⟨r, hr, herror⟩ => by
    rw [hno r (reports_declared_subset hr)] at herror
    cases herror

theorem Conforms.formed (hR : (Arities.exactly ar).Builtin) {x : Exports} (h : Conforms ar x) :
    x.Formed (Arities.exactly ar) := by
  induction h with
  | @intro m imports checked _ hm hok ih =>
    obtain ⟨hno, -⟩ := of_module_eq_ok hok
    rw [eq_of_module_eq_ok hok]
    exact (formed_elaborate (hm.permits hR) ih (trusted_of_accepted hno)).2.exports

theorem Conforms.compiled {x : Exports} (h : Conforms ar x) : Compiled x := by
  induction h with
  | intro _ _ hok ih => exact .intro ih hok

/-- In a module that is accepted, the evidence for each constraint, at an occurrence or in the
evidence for another constraint, has a core term if no hole in it is open, and the type of that term
is the constraint with all that is known of its type. -/
theorem type_of_evidence (hR : (Arities.exactly ar).Builtin) (hi : ∀ x ∈ imports, Conforms ar x)
    (h : Obeys ar m) (hm : module m imports = .ok checked) :
    ∀ y ∈ Typed.exprsOf (Typed.Bind.nodesOf checked.binds), ∀ d ∈ y.dicts, ∀ k ∈ d.holes,
      k.complete → ∃ p e t, k = .solved p e ∧ Core.Lower.evidence e = .ok t ∧ t.type = .ok p.ty := by
  intro y hy d hd k hk hcomplete
  let s := (elaborate m imports).state
  obtain ⟨hno, hbinds⟩ := of_module_eq_ok hm
  obtain ⟨hformed, -⟩ := formed_elaborate (h.permits hR) (fun x hx => (hi x hx).formed hR)
    (trusted_of_accepted hno)
  obtain ⟨goals, hgoals⟩ := hformed.goals
  have hargs : ∀ x ∈ s.solutions, ∀ d ∈ x.2.args, ∃ v p, d = .unsolved v p ∧ goals[v]? = some p := by
    obtain ⟨hbalanced, -⟩ := balanced_elaborate (m := m) fun x hx => (hi x hx).compiled.wellFormed
    intro x hx d hd
    obtain ⟨v, p, rfl, -⟩ := hbalanced.args x hx d hd
    exact ⟨v, p, rfl, hgoals.args x hx v p hd⟩
  rw [Typed.mem_exprsOf, hbinds, Typed.nodes_binds, List.mem_map] at hy
  obtain ⟨n, hn, hy⟩ := hy
  obtain ⟨y', rfl, rfl⟩ : ∃ y', n = .expr y' ∧ (elaborate m imports).answers.expr y' = y := by
    cases n <;> cases hy
    exact ⟨_, rfl, rfl⟩
  rw [Typed.dicts_expr] at hd
  obtain ⟨d, hdict, rfl⟩ := List.mem_map.1 hd
  obtain ⟨v, p, rfl⟩ := unsolved_of_accepted (fun x hx => (hi x hx).compiled) hno y' hn d hdict
  obtain ⟨t, ht⟩ := inferred_of_accepted hno hn hdict
  cases Typed.filled_of_mem_holes hargs (hgoals.noted _ ht v p hdict) k hk with
  | unsolved => cases hcomplete
  | @solved u q e a hq he ha =>
    obtain ⟨q', hq', hfits⟩ := hgoals.solved _ he
    obtain rfl : q = q' := Option.some.inj (hq.symm.trans hq')
    rcases Core.evidence_or (a.evidenceOf e) with ⟨-, t, ht⟩ | ⟨hopen, -⟩
    · refine ⟨_, _, t, rfl, ht, type_evidence (fun c k n hk hn => ?_) hfits ha ht⟩
      exact Eq.trans hk (Eq.symm hn)
    · exact absurd hcomplete hopen

/-- The type of the term for a hole. -/
def dictTy? (h : Hole) : Option Ty :=
  match Core.Lower.hole h with
  | .ok t => t.type.toOption
  | .error _ => none

/-- The arities in a module with a type `P` of one variable. -/
def arityBesides (c : Name) : Nat :=
  if c = Builtin.funTyCon then 2 else if c = Builtin.listTyCon ∨ c.occ = "P" then 1 else 0

/-- With `data P a = P a` and `instance S a => S (P a)`, the dictionary for `s (P B)` is that of `P`
at `B`, applied to that of `B`. -/
theorem type_of_evidence_classModule :
    let arg : Surface.TypeExpr := .var "a" .unknown
    let head (c : String) (ts : List Surface.TypeExpr) : Surface.TypeExpr := .con c ts .unknown
    let pair : Surface.Expr := .app (.con "P" .unknown) (.con "B" .unknown) .unknown
    let m := classModule [.data ⟨"P", ["a"], [⟨"P", [arg], .unknown⟩], .unknown, .unknown⟩,
      .inst ⟨[], "S", head "B" [], [], .unknown⟩,
      .inst ⟨[⟨"S", "a", .unknown⟩], "S", head "P" [arg], [], .unknown⟩, .bind (constrained pair)]
    let checked := (run m []).checked
    (Arities.exactly arityBesides).Builtin ∧ Obeys arityBesides m ∧ module m [] = .ok checked ∧
    (∃ y ∈ Typed.exprsOf (Typed.Bind.nodesOf checked.binds), ∃ d ∈ y.dicts,
      d.holes.length = 2 ∧ d.complete) ∧
    ∀ y ∈ Typed.exprsOf (Typed.Bind.nodesOf checked.binds), ∀ d ∈ y.dicts, ∀ k ∈ d.holes,
      k.complete → ∃ p e t, k = .solved p e ∧ Core.Lower.evidence e = .ok t ∧ t.type = .ok p.ty := by
  intro arg head pair m checked
  have hR : (Arities.exactly arityBesides).Builtin := ⟨rfl, rfl, rfl, rfl, rfl⟩
  have hobeys : Obeys arityBesides m := by
    refine ⟨fun d hd => ?_, by decide +kernel⟩
    simp only [m, classModule, List.mem_cons, Surface.Decl.data.injEq, List.not_mem_nil,
      reduceCtorEq, or_false, false_or] at hd
    rcases hd with rfl | rfl
    · rfl
    · rfl
  have hm : module m [] = .ok checked := module_eq_ok (by decide +kernel)
  exact ⟨hR, hobeys, hm, by decide +kernel, type_of_evidence hR (by simp) hobeys hm⟩

/-- The class `K`, `instance K ([a] b)`, whose head gives the list constructor two arguments, and
`f = k [1]`. -/
def crowdedList : Surface.Module :=
  let a : Surface.TypeExpr := .var "a" .unknown
  let sig : Surface.TypeSig := ⟨[("k", .unknown)], ⟨[], .fn a a .unknown, .unknown⟩, .unknown⟩
  let method : Surface.FunBind :=
    .mk "k" .unknown (.mk [.var "x" .unknown] (.var "x" .unknown) .unknown) [] .unknown
  let body : Surface.Expr := .app (.var "k" .unknown) (.list [.lit (.int 1) .unknown] .unknown) .unknown
  { Surface.Module.empty "M" with
    decls := [.cls ⟨"K", "a", [sig], .unknown, .unknown⟩,
      .inst ⟨[], "K", .con "[]" [a, .var "b" .unknown] .unknown, [method], .unknown⟩,
      .bind (.fn (.mk "f" .unknown (.mk [] body .unknown) [] .unknown))] }

/-- The arguments of the list constructor are not counted, so the instance for a list with two
arguments is accepted, and its dictionary, used for a list with one, has a type that is quantified. -/
theorem mistyped_of_crowdedList :
    let checked := (run crowdedList []).checked
    module crowdedList [] = .ok checked ∧
    ¬ ∀ y ∈ Typed.exprsOf (Typed.Bind.nodesOf checked.binds), ∀ d ∈ y.dicts,
      d.complete → ∃ p e t, d = .solved p e ∧ Core.Lower.evidence e = .ok t ∧ t.type = .ok p.ty := by
  intro checked
  refine ⟨module_eq_ok (by decide +kernel), fun h => ?_⟩
  obtain ⟨y, hy, d, hd, hcomplete, hne⟩ : ∃ y ∈ Typed.exprsOf (Typed.Bind.nodesOf checked.binds),
      ∃ d ∈ y.dicts, d.complete ∧ dictTy? d ≠ some d.pred.ty := by decide +kernel
  obtain ⟨p, e, t, rfl, he, ht⟩ := h y hy d hd hcomplete
  refine hne ?_
  rw [dictTy?, Core.Lower.hole, he]
  exact congrArg Except.toOption ht

end Check

end TypeLens
