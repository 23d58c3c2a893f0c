import Mathlib.Data.List.Forall2
import TypeLens.Proofs.Typing.Soundness

/-!
Whatever has a type is inferred without a report, and its type is an instance of the one that is
found. An assignment that yields the type is extended to each new variable as it comes up.
-/

namespace TypeLens.Check

open Surface (Expr Pat Alt Operand OpRef)
open Typing

def Agree (n : Nat) (θ θ' : Assignment) : Prop := ∀ m : Int, m ≤ n → θ' m = θ m

/-- An action that leaves types and reports alone. -/
def Plain {α : Type} (act : CheckM α) : Prop :=
  ∀ s, (act.run s).2.subst = s.subst ∧ (act.run s).2.uvars = s.uvars ∧
    (act.run s).2.reports = s.reports

theorem plain_wantedFor (loc : Span) (use : String) (ps : List Pred) :
    Plain (wantedFor loc use ps) := by
  induction ps with
  | nil => exact fun _ => ⟨rfl, rfl, rfl⟩
  | cons p ps ih => exact fun s => ih (freshHole.run s).2

theorem plain_wanted (f : List Wanted → List Wanted) :
    Plain (modify fun s => { s with wanted := f s.wanted }) := fun _ => ⟨rfl, rfl, rfl⟩

theorem plain_newLocal (env : Env) (x : String) (t : Ty) : Plain (newLocal env x t) :=
  fun _ => ⟨rfl, rfl, rfl⟩

theorem plain_note (e : Inferred) : Plain (note e) := fun _ => ⟨rfl, rfl, rfl⟩

/-- A state with an assignment of plain types. Whether it goes with what is known in the state
depends only on the variables that have come up so far. -/
structure World where
  state : State
  θ : Assignment
  images : state.subst.images.Mono
  mono (m : UVar) : (θ m).Mono
  respects {θ' : Assignment} : Agree state.uvars θ θ' → Images.Respects θ' state.subst.images

namespace World

variable {w w' w'' : World} {t u v p q : Ty} {α β : Type}

/-- New variables may have come up, and nothing was reported. -/
structure Le (w w' : World) : Prop where
  uvars : w.state.uvars ≤ w'.state.uvars
  agree : Agree w.state.uvars w.θ w'.θ
  reports : w'.state.reports = w.state.reports

theorem Le.refl (w : World) : Le w w := ⟨Nat.le_refl _, fun _ _ => rfl, rfl⟩

theorem Le.trans (h : Le w w') (h' : Le w' w'') : Le w w'' where
  uvars := Nat.le_trans h.uvars h'.uvars
  agree m hm := by
    have hm' : m ≤ w'.state.uvars := by
      have := h.uvars
      omega
    rw [h'.agree m hm', h.agree m hm]
  reports := h'.reports.trans h.reports

theorem Le.agree_of (h : Le w w') {θ : Assignment} (hθ : Agree w'.state.uvars w'.θ θ) :
    Agree w.state.uvars w.θ θ := by
  intro m hm
  have hm' : m ≤ w'.state.uvars := by
    have := h.uvars
    omega
  rw [hθ m hm', h.agree m hm]

/-- A type becomes another under the assignment, whatever comes up later. -/
def Is (w : World) (t v : Ty) : Prop :=
  t.Mono ∧ ∀ θ, Agree w.state.uvars w.θ θ → t.assigned θ = v

theorem Is.later (h : w.Is t v) (hw : Le w w') : w'.Is t v :=
  ⟨h.1, fun θ hθ => h.2 θ (hw.agree_of hθ)⟩

theorem Is.assigned (h : w.Is t v) : t.assigned w.θ = v := h.2 w.θ fun _ _ => rfl

theorem Is.mono (h : w.Is t v) : v.Mono := by
  rw [← h.assigned]
  exact h.1.assigned w.mono

theorem is_fn : w.Is (.fn t u) (.fn p q) ↔ w.Is t p ∧ w.Is u q := by
  have hassigned (θ : Assignment) : (Ty.fn t u).assigned θ = .fn p q ↔
      t.assigned θ = p ∧ u.assigned θ = q := by
    simp [Ty.fn, Ty.assigned, Ty.substUvars]
  constructor
  · rintro ⟨⟨⟨-, ht⟩, hu⟩, h⟩
    exact ⟨⟨ht, fun θ hθ => ((hassigned θ).1 (h θ hθ)).1⟩,
      ⟨hu, fun θ hθ => ((hassigned θ).1 (h θ hθ)).2⟩⟩
  · rintro ⟨⟨ht, h⟩, ⟨hu, h'⟩⟩
    exact ⟨⟨⟨trivial, ht⟩, hu⟩, fun θ hθ => (hassigned θ).2 ⟨h θ hθ, h' θ hθ⟩⟩

theorem Is.fns {ts vs : List Ty} (hts : List.Forall₂ w.Is ts vs) (ht : w.Is t v) :
    w.Is (.fns ts t) (.fns vs v) := by
  induction hts with
  | nil => exact ht
  | cons h _ ih => exact is_fn.2 ⟨h, ih⟩

theorem is_all {ts vs : List Ty} (h : List.Forall₂ w.Is ts vs) :
    (∀ u ∈ ts, u.Mono) ∧ ∀ θ, Agree w.state.uvars w.θ θ → ts.map (Ty.assigned θ) = vs := by
  induction h with
  | nil => exact ⟨by simp, fun _ _ => rfl⟩
  | cons h _ ih =>
    refine ⟨List.forall_mem_cons.2 ⟨h.1, ih.1⟩, fun θ hθ => ?_⟩
    rw [List.map_cons, h.2 θ hθ, ih.2 θ hθ]

/-- A type without unification variables at type arguments. -/
theorem Is.at {ts vs : List Ty} (hm : t.Mono) (hg : t.uvarOccurrences = [])
    (hts : List.Forall₂ w.Is ts vs) (tvs : List String) :
    w.Is (t.substVars (assign tvs ts)) (t.substVars (assign tvs vs)) := by
  refine ⟨hm.at tvs (is_all hts).1, fun θ hθ => ?_⟩
  rw [Ty.assigned_at θ hg, (is_all hts).2 θ hθ]

theorem Is.closed (hm : t.Mono) (hg : t.uvarOccurrences = []) : w.Is t t :=
  ⟨hm, fun _ _ => Ty.assigned_eq_self hg⟩

/-- An action reports nothing, and with some assignment for new variables what it returns
satisfies `Q`. -/
def Completes (w : World) (act : CheckM α) (Q : World → α → Prop) : Prop :=
  ∃ w', Le w w' ∧ w'.state = (act.run w.state).2 ∧ Q w' (act.run w.state).1

namespace Completes

variable {act : CheckM α} {Q : World → α → Prop} {R : World → β → Prop}

theorem pure {a : α} (h : Q w a) : w.Completes (Pure.pure a) Q := ⟨w, .refl w, rfl, h⟩

theorem bind {f : α → CheckM β} (h : w.Completes act Q)
    (hf : ∀ w' a, Le w w' → Q w' a → w'.Completes (f a) R) : w.Completes (act >>= f) R := by
  obtain ⟨w', hw', hs, hQ⟩ := h
  obtain ⟨w'', hw'', hs', hR⟩ := hf w' _ hw' hQ
  rw [hs] at hs' hR
  exact ⟨w'', hw'.trans hw'', hs', hR⟩

theorem run_bind {act : PatM α} {f : α → PatM β} {b : Bound} {Q : World → α × Bound → Prop}
    {R : World → β × Bound → Prop} (h : w.Completes (act.run b) Q)
    (hf : ∀ w' r, Le w w' → Q w' r → w'.Completes ((f r.1).run r.2) R) :
    w.Completes ((act >>= f).run b) R := bind h hf

theorem run_lift {f : α → PatM β} {b : Bound} {R : World → β × Bound → Prop}
    (h : w.Completes act Q) (hf : ∀ w' a, Le w w' → Q w' a → w'.Completes ((f a).run b) R) :
    w.Completes ((liftM act >>= f).run b) R := bind h hf

theorem of_plain (h : Plain act) (hQ : ∀ w', Le w w' → Q w' (act.run w.state).1) :
    w.Completes act Q := by
  obtain ⟨hs, hu, hr⟩ := h w.state
  let w' : World := {
    state := (act.run w.state).2
    θ := w.θ
    images := hs ▸ w.images
    mono := w.mono
    respects := fun h => by
      rw [hs]
      rw [hu] at h
      exact w.respects h }
  have hle : Le w w' := ⟨hu ▸ Nat.le_refl _, fun _ _ => rfl, hr⟩
  exact ⟨w', hle, rfl, hQ w' hle⟩

theorem skip {f : α → CheckM β} (h : Plain act)
    (hf : ∀ w' a, Le w w' → w'.Completes (f a) R) : w.Completes (act >>= f) R :=
  bind (of_plain (Q := fun _ _ => True) h fun _ _ => trivial) fun w' a hw _ => hf w' a hw

end Completes

/-- A new variable can be given any plain type. -/
theorem completes_freshUvar (hv : v.Mono) : w.Completes freshUvar fun w' t => w'.Is t v := by
  let n : Int := w.state.uvars + 1
  let θ : Assignment := fun m => if m = n then v else w.θ m
  have hagree : Agree w.state.uvars w.θ θ := by
    intro m hm
    have hne : m ≠ n := by omega
    simp [θ, hne]
  have hmono (m : UVar) : (θ m).Mono := by
    by_cases hm : m = n
    · simpa [θ, hm] using hv
    · simpa [θ, hm] using w.mono m
  let w' : World := {
    state := (freshUvar.run w.state).2
    θ := θ
    images := w.images
    mono := hmono
    respects := fun {θ'} h => w.respects fun m hm => by
      have hm' : m ≤ (w.state.uvars + 1 : Nat) := by omega
      exact (h m hm').trans (hagree m hm) }
  refine ⟨w', ⟨Nat.le_succ _, hagree, rfl⟩, rfl, trivial, fun θ' hθ' => ?_⟩
  have hn : n ≤ (w.state.uvars + 1 : Nat) := by omega
  exact (hθ' n hn).trans (if_pos rfl)

theorem completes_freshFor (xs : List α) {vs : List Ty} (hl : vs.length = xs.length)
    (hvs : ∀ v ∈ vs, v.Mono) :
    w.Completes (freshFor xs) fun w' ts => List.Forall₂ w'.Is ts vs := by
  induction xs generalizing w vs with
  | nil =>
    obtain rfl := List.length_eq_zero_iff.1 hl
    exact .pure .nil
  | cons x xs ih =>
    obtain _ | ⟨v, vs⟩ := vs
    · cases hl
    obtain ⟨hv, hvs⟩ := List.forall_mem_cons.1 hvs
    refine .bind (completes_freshUvar hv) fun w₁ t _ ht => ?_
    refine .bind (ih (Nat.succ.inj hl) hvs) fun w₂ ts hw₂ hts => .pure ?_
    exact .cons (ht.later hw₂) hts

theorem completes_zonk (ht : w.Is t v) : w.Completes (zonk t) fun w' u => w'.Is u v := by
  have himage : ((zonk t).run w.state).2.subst.image? = w.state.subst.image? :=
    w.state.subst.image?_zonk t
  let w' : World := {
    state := ((zonk t).run w.state).2
    θ := w.θ
    images := mono_congr himage w.images
    mono := w.mono
    respects := fun h =>
      (Images.respects_congr w.state.subst.acyclic ((zonk t).run w.state).2.subst.acyclic himage).2
        (w.respects h) }
  refine ⟨w', ⟨Nat.le_refl _, fun _ _ => rfl, rfl⟩, rfl, ?_⟩
  rw [zonk_run_fst]
  refine ⟨Images.mono_apply w.images ht.1, fun θ hθ => ?_⟩
  have hsolves := (Images.respects_iff w.state.subst.acyclic).1 (w.respects hθ)
  exact (hsolves t).trans (ht.2 θ hθ)

/-- The assignment makes the types equal, so they have a unifier, and it goes with the most general
one. -/
theorem completes_unify (ht : w.Is t v) (hu : w.Is u v) (loc : Span) :
    w.Completes (unify t u loc) fun _ _ => True := by
  have hrun := Images.unify_unifies w.state.subst.acyclic t u
  have hsettles (θ : Assignment) :=
    hrun.settles w.state.subst.acyclic w.images ht.1 hu.1 θ
  have heq {θ : Assignment} (hθ : Agree w.state.uvars w.θ θ) : t.assigned θ = u.assigned θ :=
    (ht.2 θ hθ).trans (hu.2 θ hθ).symm
  have hnone : (w.state.subst.unify t u).2 = none := by
    cases h : (w.state.subst.images.unify t u).2 with
    | none => exact h
    | some e =>
      have hne := hsettles w.θ
      rw [show w.state.subst.images.unify t u = (_, some e) from Prod.ext rfl h] at hne
      exact absurd (heq fun _ _ => rfl) (hne (w.respects fun _ _ => rfl))
  have himages : w.state.subst.images.unify t u =
      ((w.state.subst.unify t u).1.images, none) := Prod.ext rfl hnone
  let w' : World := {
    state := ((unify t u loc).run w.state).2
    θ := w.θ
    images := (Step.unify (N := fun _ => True) w.state loc ht.1 hu.1).mono w.images
    mono := w.mono
    respects := fun {θ'} h => by
      rw [unify_run_of_none loc hnone] at h ⊢
      have hsettle := hsettles θ'
      rw [himages] at hsettle
      exact hsettle.2 ⟨w.respects h, heq h⟩ }
  refine ⟨w', ⟨?_, fun _ _ => rfl, ?_⟩, rfl, trivial⟩
  · show w.state.uvars ≤ ((unify t u loc).run w.state).2.uvars
    exact Nat.le_of_eq (congrArg State.uvars (unify_run_of_none loc hnone)).symm
  · show ((unify t u loc).run w.state).2.reports = w.state.reports
    rw [unify_run_of_none loc hnone]

theorem completes_noted {e : Typed.Expr} (ht : w.Is t v) :
    w.Completes (note (e, t)) fun w' r => w'.Is r.2 v :=
  .of_plain (plain_note _) fun _ hw => ht.later hw

/-- The types of identifiers become those of a context. -/
def Scope (w : World) (ids : Locals) (Γ : Ctx) : Prop :=
  List.Forall₂ (fun i p => i.1 = p.1 ∧ i.2.scheme.isMono = true ∧ w.Is i.2.scheme.body p.2) ids Γ

theorem Scope.later {ids : Locals} {Γ : Ctx} (h : w.Scope ids Γ) (hw : Le w w') :
    w'.Scope ids Γ := h.imp fun _ _ h => ⟨h.1, h.2.1, h.2.2.later hw⟩

theorem Scope.append {ids ids' : Locals} {Γ Δ : Ctx} (h : w.Scope ids Γ) (h' : w.Scope ids' Δ) :
    w.Scope (ids ++ ids') (Γ ++ Δ) := List.rel_append h h'

theorem Scope.keys {ids : Locals} {Γ : Ctx} (h : w.Scope ids Γ) :
    ids.map Prod.fst = Γ.map Prod.fst := by
  induction h with
  | nil => rfl
  | cons h _ ih => rw [List.map_cons, List.map_cons, h.1, ih]

theorem Scope.mono {ids : Locals} {Γ : Ctx} (h : w.Scope ids Γ) : ∀ p ∈ Γ, p.2.Mono := by
  induction h with
  | nil => simp
  | cons h _ ih => exact List.forall_mem_cons.2 ⟨h.2.2.mono, ih⟩

theorem Scope.lookup {ids : Locals} {Γ : Ctx} (h : w.Scope ids Γ) (x : String) :
    Option.Rel (fun i t => i.scheme.isMono = true ∧ w.Is i.scheme.body t) (ids.lookup x)
      (Γ.lookup x) := by
  induction h with
  | nil => exact .none
  | @cons i p ids Γ h _ ih =>
    obtain ⟨y, i⟩ := i
    obtain ⟨z, t⟩ := p
    obtain ⟨rfl, h⟩ := h
    rw [List.lookup_cons, List.lookup_cons]
    cases x == y with
    | true => exact .some h
    | false => exact ih

-- Names

theorem completes_local {h : Typed.Head} (hs : h.scheme.isMono = true)
    (hv : w.Is h.scheme.body v) (occ : String) (loc : Span) :
    w.Completes (occurrence h occ loc) fun w' r => w'.Is r.2 v := by
  unfold occurrence
  dsimp only
  rw [if_pos hs]
  exact .bind (completes_noted hv) fun _ _ _ hr => .pure hr

theorem completes_occurrence {h : Typed.Head} (hm : h.scheme.body.Mono)
    (hg : h.scheme.body.uvarOccurrences = []) (hv : h.scheme.Admits v) (occ : String) (loc : Span) :
    w.Completes (occurrence h occ loc) fun w' r => w'.Is r.2 v := by
  obtain ⟨vs, hl, hvs, rfl⟩ := hv
  by_cases hs : h.scheme.isMono = true
  · rw [eq_nil_of_isMono hs, substVars_assign_nil]
    exact completes_local hs (.closed hm hg) occ loc
  · unfold occurrence
    dsimp only
    rw [if_neg hs]
    refine .bind (completes_freshFor _ hl hvs) fun w₁ ts _ hts => ?_
    refine .skip (plain_wantedFor _ _ _) fun w₂ goals hw₂ => ?_
    refine .skip (plain_wanted (· ++ goals)) fun w₃ _ hw₃ => ?_
    have hts' := hts.imp fun _ _ ht => ht.later (hw₂.trans hw₃)
    exact completes_noted (.at hm hg hts' _)

end World

open World

/-- Whatever type an action can find by a rule, it finds. -/
def Complete (env : Env) (act : CheckM Inferred) (J : Ctx → Ty → Prop) : Prop :=
  ∀ (w : World) Γ v, w.Scope env.locals Γ → J Γ v → w.Completes act fun w' r => w'.Is r.2 v

variable {env : Env}

theorem complete_inferVar (hg : env.globals.Closed) (x : String) (loc : Span) :
    Complete env (inferVar env x loc) (VarHasType env.globals · x) := by
  intro w Γ v hΓ hv
  have hlookup := hΓ.lookup x
  unfold inferVar
  cases hv with
  | bound ht =>
    rw [ht] at hlookup
    obtain ⟨i, hi, hmono, his⟩ : ∃ i, env.locals.lookup x = some i ∧ i.scheme.isMono = true ∧
        w.Is i.scheme.body v := by
      cases h : env.locals.lookup x with
      | none =>
        rw [h] at hlookup
        cases hlookup
      | some i =>
        rw [h] at hlookup
        cases hlookup with
        | some h => exact ⟨i, rfl, h⟩
    simp only [hi]
    exact completes_local (h := .var i) hmono his x loc
  | @top n s hnone hn hs hv =>
    have hi : env.locals.lookup x = none := by
      cases h : env.locals.lookup x with
      | none => rfl
      | some i =>
        rw [h, hnone] at hlookup
        cases hlookup
    simp only [hi, hn]
    have hmono := hg.mono hs
    have hground := hg.ground hs
    obtain ⟨c, hc, rfl⟩ | ⟨i, hi', rfl⟩ := Globals.entity?_of_scheme? hs
    · simp only [hc]
      exact completes_occurrence (h := .con n c.scheme) hmono hground hv x loc
    · simp only [hi']
      exact completes_occurrence (h := .var ⟨n, i.scheme⟩) hmono hground hv x loc

theorem complete_inferCon (hg : env.globals.Closed) (x : String) (loc : Span) :
    Complete env (inferCon env x loc) fun _ => ConHasType env.globals x := by
  rintro w Γ v - ⟨c, hc, hv⟩
  obtain ⟨n, hn, he⟩ := resolveCon_ok hc
  have hs : env.globals.scheme? n = some c.scheme := by simp [Globals.scheme?, he]
  unfold inferCon
  simp only [hn, he]
  exact completes_occurrence (h := .con n c.scheme) (hg.mono hs) (hg.ground hs) hv x loc

theorem complete_inferOp (hg : env.globals.Closed) (op : OpRef) :
    Complete env (inferOp env op) (OpHasType env.globals · op) := by
  intro w Γ v hΓ hv
  unfold inferOp
  unfold OpHasType at hv
  split at hv
  · next hc =>
    rw [if_pos hc]
    exact complete_inferCon hg op.name op.loc w Γ v hΓ hv
  · next hc =>
    rw [if_neg hc]
    exact complete_inferVar hg op.name op.loc w Γ v hΓ hv

-- Patterns

/-- Patterns bind variables of the given types, all of them new. -/
def BindsAll (b : Bound) (Γ : Ctx) (w : World) (b' : Bound) : Prop :=
  ∃ d : Bound, b' = b ++ d ∧ w.Scope d Γ

/-- The variables of a context come once, and none of them is bound already. -/
def NewIn (b : Bound) (Γ : Ctx) : Prop :=
  (Γ.map Prod.fst).Nodup ∧ ∀ x ∈ Γ.map Prod.fst, x ∉ b.keys

theorem NewIn.append {b : Bound} {Γ Δ : Ctx} (h : NewIn b (Γ ++ Δ)) :
    NewIn b Γ ∧ ∀ {d : Bound}, d.map Prod.fst = Γ.map Prod.fst → NewIn (b ++ d) Δ := by
  obtain ⟨hn, hnew⟩ := h
  simp only [List.map_append, List.nodup_append, List.mem_append] at hn hnew
  refine ⟨⟨hn.1, fun x hx => hnew x (.inl hx)⟩, fun {d} hd => ⟨hn.2.1, fun x hx => ?_⟩⟩
  rw [Table.keys, List.map_append, hd, List.mem_append]
  rintro (hb | hΓ)
  · exact hnew x (.inr hx) hb
  · exact hn.2.2 x hΓ x hx rfl

mutual

theorem completes_checkPat (hg : env.globals.Closed) : ∀ (p : Pat) (t v : Ty) (Γ : Ctx) (b : Bound)
    (w : World), PatHasType env.globals p v Γ → w.Is t v → NewIn b Γ →
    w.Completes ((checkPat env [] p t).run b) fun w' r => BindsAll b Γ w' r.2
  | .var x l, t, v, Γ, b, w, h, ht, hn => by
    cases h
    have hnone : b.get? x = none := Table.get?_eq_none_iff.2 (hn.2 x (by simp))
    have hnew : b.contains x = false := by simp [Table.contains, hnone]
    unfold checkPat
    refine .run_bind (Q := fun w' r => r = (b, b)) (.pure rfl) fun w' r hw hr => ?_
    subst hr
    rw [hnew]
    refine .run_lift (Q := fun _ _ => True) (.pure trivial) fun w₁ _ hw₁ _ => ?_
    refine .run_lift (Q := fun _ i => i.scheme = .mono t)
      (.of_plain (plain_newLocal env x t) fun _ _ => rfl)
      fun w₂ i hw₂ hi => .pure ⟨[(x, i)], Table.put_of_none hnone i, .cons ⟨rfl, ?_⟩ .nil⟩
    rw [hi]
    exact ⟨rfl, ((ht.later hw).later hw₁).later hw₂⟩
  | .wild l, t, v, Γ, b, w, h, ht, hn => by
    cases h
    unfold checkPat
    exact .pure ⟨[], (List.append_nil b).symm, .nil⟩
  | .lit u l, t, v, Γ, b, w, h, ht, hn => by
    cases h
    have hu : w.Is u.ty u.ty := .closed (Ty.mono_literal u) (Ty.uvarOccurrences_literal u)
    unfold checkPat
    refine .run_lift (completes_unify ht hu l) fun w' _ _ _ => .pure ?_
    exact ⟨[], (List.append_nil b).symm, .nil⟩
  | .par p l, t, v, Γ, b, w, h, ht, hn => by
    cases h with
    | par h =>
      unfold checkPat
      exact .run_bind (completes_checkPat hg p t v Γ b w h ht hn) fun _ _ _ hr => .pure hr
  | .con x ps l, t, v, Γ, b, w, h, ht, hn => by
    cases h with
    | @con _ _ _ c r vs _ hc hlen hr hl hvs hps =>
    obtain ⟨r', hr', hargs, hres, hargs', hres'⟩ := closed_con hg hc
    have hresult : (c.scheme.body.splitFns ps.length).2 = r := by
      rw [hr, ← hlen, Ty.splitFns_fns]
    have hrr : r' = r := by
      rw [← hresult, hr', ← hlen, Ty.splitFns_fns]
    subst hrr
    unfold checkPat
    simp only [hc, hlen, if_true]
    refine .run_lift (completes_freshFor _ hl hvs) fun w₁ ts hw₁ hts => ?_
    rw [hresult]
    refine .run_lift (completes_unify (ht.later hw₁) (.at hres hres' hts _) l) fun w₂ _ hw₂ _ => ?_
    have hts₂ := hts.imp fun _ _ ht => ht.later hw₂
    refine .run_bind (completes_checkPats hg ps _ _ Γ b w₂ hps ?_ hn) fun w₃ r hw₃ hr => .pure hr
    rw [List.forall₂_map_left_iff, List.forall₂_map_right_iff, List.forall₂_same]
    exact fun a ha => .at (hargs a ha) (hargs' a ha) hts₂ _

theorem completes_checkPats (hg : env.globals.Closed) : ∀ (ps : List Pat) (ts vs : List Ty)
    (Γ : Ctx) (b : Bound) (w : World), PatsHaveType env.globals ps vs Γ →
    List.Forall₂ w.Is ts vs → NewIn b Γ →
    w.Completes ((checkPats env [] ps ts).run b) fun w' r => BindsAll b Γ w' r.2
  | [], ts, vs, Γ, b, w, h, hts, hn => by
    cases h
    cases hts
    unfold checkPats
    exact .pure ⟨[], (List.append_nil b).symm, .nil⟩
  | p :: ps, _, _, _, b, w, h, hts, hn => by
    cases h with
    | @cons _ _ v vs Γ Δ hp hps =>
    cases hts with
    | cons ht hts =>
    obtain ⟨hn₁, hn₂⟩ := hn.append
    unfold checkPats
    refine .run_bind (completes_checkPat hg p _ v Γ b w hp ht hn₁) fun w₁ r hw₁ hr => ?_
    obtain ⟨d, hd, hΓ⟩ := hr
    have hts₁ := hts.imp fun _ _ ht => ht.later hw₁
    have hn₂' : NewIn r.2 Δ := hd ▸ hn₂ hΓ.keys
    refine .run_bind (completes_checkPats hg ps _ vs Δ r.2 w₁ hps hts₁ hn₂') fun w₂ r' hw₂ hr' => ?_
    obtain ⟨d', hd', hΔ⟩ := hr'
    refine .pure ⟨d ++ d', ?_, (hΓ.later hw₂).append hΔ⟩
    rw [hd', hd, List.append_assoc]

end

-- Equations

section

variable {J : Ctx → Ty → Prop} {rhs : Env → CheckM Inferred} {w : World} {Γ : Ctx}

theorem completes_checkRow (hg : env.globals.Closed) {argTys vs : List Ty} {resTy v : Ty}
    {ps : List Pat} {l rl : Span} (hargs : List.Forall₂ w.Is argTys vs) (hres : w.Is resTy v)
    (hΓ : w.Scope env.locals Γ)
    (hr : ∀ b : Bound, Complete (env.extend b) (rhs (env.extend b)) J)
    (h : RowHasType env.globals ps J Γ vs v) :
    w.Completes (checkRow env argTys resTy ⟨ps, l, rl, rhs⟩) fun _ _ => True := by
  obtain ⟨Δ, hps, hn, hJ⟩ := h
  have hnew : NewIn [] Δ := ⟨hn, fun _ _ h => nomatch h⟩
  refine .bind (completes_checkPats hg ps argTys vs Δ [] w hps hargs hnew) fun w₁ r hw₁ hbinds => ?_
  obtain ⟨d, hd, hΔ⟩ := hbinds
  obtain rfl : r.2 = d := hd
  have hscope : w₁.Scope (env.extend r.2).locals (Δ ++ Γ) := hΔ.append (hΓ.later hw₁)
  refine .bind (hr r.2 w₁ _ v hscope hJ) fun w₂ e hw₂ he => ?_
  have hres₂ := (hres.later hw₁).later hw₂
  exact .bind (completes_unify hres₂ he rl) fun _ _ _ _ => .pure trivial

theorem completes_checkGroup (hg : env.globals.Closed) {expected v : Ty} {vs : List Ty}
    {ps : List Pat} {l rl : Span} (hexpected : w.Is expected (.fns vs v)) (hvs : ∀ u ∈ vs, u.Mono)
    (hv : v.Mono) (hΓ : w.Scope env.locals Γ)
    (hr : ∀ b : Bound, Complete (env.extend b) (rhs (env.extend b)) J)
    (h : RowHasType env.globals ps J Γ vs v) :
    w.Completes (checkGroup env expected ⟨ps, l, rl, rhs⟩ []) fun w' g =>
      w'.Is g.ty (.fns vs v) := by
  have hlen : vs.length = ps.length := by
    obtain ⟨Δ, hps, -, -⟩ := h
    exact hps.length
  unfold checkGroup
  refine .bind (completes_freshFor ps hlen hvs) fun w₁ ts hw₁ hts => ?_
  refine .bind (completes_freshUvar hv) fun w₂ t hw₂ ht => ?_
  have hts₂ := hts.imp fun _ _ ht => ht.later hw₂
  have hexpected₂ := (hexpected.later hw₁).later hw₂
  have hfns : w₂.Is (.fns ts t) (.fns vs v) := .fns hts₂ ht
  refine .bind (completes_unify hexpected₂ hfns l) fun w₃ _ hw₃ _ => ?_
  rw [List.mapM_cons, List.mapM_nil]
  have hts₃ := hts₂.imp fun _ _ ht => ht.later hw₃
  have hΓ₃ := ((hΓ.later hw₁).later hw₂).later hw₃
  have hrow : w₃.Completes (checkRow env ts t ⟨ps, l, rl, rhs⟩) fun _ _ => True :=
    completes_checkRow hg hts₃ (ht.later hw₃) hΓ₃ hr h
  refine .bind (Q := fun w' _ => World.Le w₃ w') ?_ fun w₄ ms hw₄ _ => .pure ?_
  · exact .bind hrow fun w₄ m hw₄ _ => .pure hw₄
  · exact hfns.later (hw₃.trans hw₄)

end

-- Operators

theorem opFixity_scope {w : World} {Γ : Ctx} (hΓ : w.Scope env.locals Γ) :
    opFixity env = fixityIn env.globals Γ := by
  refine opFixity_eq fun x => ?_
  have hlookup := hΓ.lookup x
  cases h : env.locals.lookup x <;> cases h' : Γ.lookup x <;> simp_all

theorem complete_inferTree (hg : env.globals.Closed) {tree : OpTree OpRef Expr}
    (h : ∀ e ∈ tree.operands, Complete env (infer env e) (HasType env.globals · e)) :
    Complete env (inferTree env (tree.map (part env))) (TreeHasType env.globals · tree) := by
  induction tree with
  | leaf e =>
    intro w Γ v hΓ hv
    cases hv with
    | leaf hv => exact h e (List.mem_singleton.2 rfl) w Γ v hΓ hv
  | node x op y ihx ihy =>
    simp only [OpTree.operands, List.mem_append] at h
    intro w Γ v hΓ hv
    cases hv with
    | @node _ _ _ _ p q _ hx hop hy =>
    unfold OpTree.map inferTree
    refine .bind (ihx (fun e he => h e (.inl he)) w Γ p hΓ hx) fun w₁ x' hw₁ hx' => ?_
    have hΓ₁ := hΓ.later hw₁
    refine .bind (complete_inferOp hg op w₁ Γ _ hΓ₁ hop) fun w₂ op' hw₂ hop' => ?_
    have hΓ₂ := hΓ₁.later hw₂
    refine .bind (ihy (fun e he => h e (.inr he)) w₂ Γ q hΓ₂ hy) fun w₃ y' hw₃ hy' => ?_
    have hv : v.Mono := hop'.mono.2.2
    refine .bind (completes_freshUvar hv) fun w₄ res hw₄ hres => ?_
    have hx₄ := hx'.later ((hw₂.trans hw₃).trans hw₄)
    have hy₄ := hy'.later hw₄
    refine .bind (completes_zonk (hop'.later (hw₃.trans hw₄))) fun w₅ u hw₅ hu => ?_
    split
    · next p' q' t ht =>
      rw [Ty.eq_fn_of_splitFns ht, World.is_fn, World.is_fn] at hu
      refine .bind (completes_unify hu.1 (hx₄.later hw₅) _) fun w₆ _ hw₆ _ => ?_
      refine .bind (completes_unify (hu.2.1.later hw₆) (hy₄.later (hw₅.trans hw₆)) _)
        fun w₇ _ hw₇ _ => ?_
      exact completes_noted (hu.2.2.later (hw₆.trans hw₇))
    · have hfns : w₅.Is (.fns [x'.2, y'.2] res) (.fns [p, q] v) :=
        .fns (.cons (hx₄.later hw₅) (.cons (hy₄.later hw₅) .nil)) (hres.later hw₅)
      have hop₅ := hop'.later ((hw₃.trans hw₄).trans hw₅)
      refine .bind (completes_unify hfns hop₅ _) fun w₆ _ hw₆ _ => ?_
      exact completes_noted (hres.later (hw₅.trans hw₆))

theorem complete_inferRow (hg : env.globals.Closed) {e : Expr} {es : List Operand} (l : Span)
    (he : Complete env (infer env e) (HasType env.globals · e))
    (hes : ∀ o ∈ es, Complete env (infer env (operand o).2) (HasType env.globals · (operand o).2)) :
    Complete env (inferRow env (part env e) (operands env es))
      (HasType env.globals · (.row e es l)) := by
  intro w Γ v hΓ hv
  cases hv with
  | @row _ _ _ _ tree _ htree hv =>
  unfold inferRow
  rw [operands_eq, OpTree.resolve_map, opFixity_scope hΓ, htree]
  refine complete_inferTree hg (fun e' he' => ?_) w Γ v hΓ hv
  have hoperands := OpTree.operands_resolve (fixityIn env.globals Γ) e (es.map operand)
  rw [htree] at hoperands
  rw [hoperands, List.map_map] at he'
  rcases List.mem_cons.1 he' with rfl | he'
  · exact he
  · obtain ⟨o, ho, rfl⟩ := List.mem_map.1 he'
    exact hes o ho

-- Expressions

theorem completes_inferElems {w : World} {Γ : Ctx} {t v : Ty} {es : List Expr} (ht : w.Is t v)
    (hΓ : w.Scope env.locals Γ)
    (h : ∀ e ∈ es, Complete env (infer env e) (HasType env.globals · e))
    (hes : ElemsHaveType env.globals Γ v es) :
    w.Completes (inferElems t (es.map (part env))) fun _ _ => True := by
  induction es generalizing w with
  | nil => exact .pure trivial
  | cons e es ih =>
    obtain ⟨hc, hcs⟩ := List.forall_mem_cons.1 h
    cases hes with
    | cons he hes =>
    refine .bind (hc w Γ v hΓ he) fun w₁ r hw₁ hr => ?_
    refine .bind (completes_unify (ht.later hw₁) hr _) fun w₂ _ hw₂ _ => ?_
    have hw := hw₁.trans hw₂
    exact .bind (ih (ht.later hw) (hΓ.later hw) hcs hes) fun _ _ _ _ => .pure trivial

theorem complete_app {f a : Expr} (l : Span)
    (hf : Complete env (infer env f) (HasType env.globals · f))
    (ha : Complete env (infer env a) (HasType env.globals · a)) :
    Complete env (infer env (.app f a l)) (HasType env.globals · (.app f a l)) := by
  intro w Γ v hΓ hv
  cases hv with
  | @app _ _ _ _ p _ hvf hva =>
  unfold infer
  refine .bind (hf w Γ _ hΓ hvf) fun w₁ f' hw₁ hf' => ?_
  refine .bind (ha w₁ Γ p (hΓ.later hw₁) hva) fun w₂ a' hw₂ ha' => ?_
  have hf₂ := hf'.later hw₂
  refine .bind (completes_zonk hf₂) fun w₃ u hw₃ hu => ?_
  split
  · next q t ht =>
    rw [Ty.eq_fn_of_splitFn? ht, World.is_fn] at hu
    refine .bind (completes_unify hu.1 (ha'.later hw₃) _) fun w₄ _ hw₄ _ => ?_
    exact completes_noted (hu.2.later hw₄)
  · have hv : v.Mono := hf'.mono.2
    refine .bind (completes_freshUvar hv) fun w₄ t hw₄ ht => ?_
    have hw := hw₃.trans hw₄
    have hfn : w₄.Is (.fn a'.2 t) (.fn p v) := World.is_fn.2 ⟨ha'.later hw, ht⟩
    refine .bind (completes_unify hfn (hf₂.later hw) _) fun w₅ _ hw₅ _ => ?_
    exact completes_noted (ht.later hw₅)

mutual

/-- By recursion on the tree, with one theorem for each form of list in it. -/
theorem complete_infer : ∀ (e : Expr) (env : Env), env.globals.Closed →
    Complete env (infer env e) (HasType env.globals · e)
  | .var x l, env, hg => by
    intro w Γ v hΓ hv
    cases hv with
    | var hv =>
    unfold infer
    exact complete_inferVar hg x l w Γ v hΓ hv
  | .con x l, env, hg => by
    intro w Γ v hΓ hv
    cases hv with
    | con hv =>
    unfold infer
    exact complete_inferCon hg x l w Γ v hΓ hv
  | .lit u l, env, hg => by
    intro w Γ v hΓ hv
    cases hv
    have hu : w.Is u.ty u.ty := .closed (Ty.mono_literal u) (Ty.uvarOccurrences_literal u)
    unfold infer
    exact completes_noted hu
  | .app f a l, env, hg => complete_app l (complete_infer f env hg) (complete_infer a env hg)
  | .row e es l, env, hg => by
    unfold infer
    exact complete_inferRow hg l (complete_infer e env hg) (complete_operands es env hg)
  | .lambda ps e l, env, hg => by
    intro w Γ v hΓ hv
    cases hv with
    | @lambda _ Δ _ vs _ _ v hps hn he =>
    have hrow : RowHasType env.globals ps (HasType env.globals · e) Γ vs v := ⟨Δ, hps, hn, he⟩
    have hΔ := hps.mono hg
    have hv : v.Mono := he.mono hg (List.forall_mem_append.2 ⟨hΔ.2, hΓ.mono⟩)
    unfold infer
    refine .bind (completes_freshUvar (Ty.mono_fns.2 ⟨hΔ.1, hv⟩)) fun w₁ t hw₁ ht => ?_
    refine .bind (completes_checkGroup hg ht hΔ.1 hv (hΓ.later hw₁)
      (fun b => complete_infer e (env.extend b) hg) hrow) fun w₂ g _ hty => ?_
    exact completes_noted hty
  | .letIn bs e l, env, hg => by
    intro w Γ v hΓ hv
    cases hv
  | .ifThenElse c y n l, env, hg => by
    intro w Γ v hΓ hv
    cases hv with
    | ifThenElse hc hy hn =>
    unfold infer
    refine .bind (complete_infer c env hg w Γ _ hΓ hc) fun w₁ c' hw₁ hc' => ?_
    have hbool : w₁.Is .bool .bool := .closed trivial rfl
    refine .bind (completes_unify hbool hc' _) fun w₂ _ hw₂ _ => ?_
    have hΓ₂ := hΓ.later (hw₁.trans hw₂)
    refine .bind (complete_infer y env hg w₂ Γ v hΓ₂ hy) fun w₃ y' hw₃ hy' => ?_
    refine .bind (complete_infer n env hg w₃ Γ v (hΓ₂.later hw₃) hn) fun w₄ n' hw₄ hn' => ?_
    refine .bind (completes_unify (hy'.later hw₄) hn' _) fun w₅ _ hw₅ _ => ?_
    exact completes_noted (hy'.later (hw₄.trans hw₅))
  | .caseOf s as l, env, hg => by
    intro w Γ v hΓ hv
    cases hv with
    | @caseOf _ _ _ _ p _ hs hv has =>
    unfold infer
    refine .bind (complete_infer s env hg w Γ p hΓ hs) fun w₁ s' hw₁ hs' => ?_
    refine .bind (completes_freshUvar hv) fun w₂ t hw₂ ht => ?_
    refine .bind (completes_altRows as env hg (hs'.later hw₂) ht (hΓ.later (hw₁.trans hw₂)) has)
      fun w₃ ms hw₃ _ => ?_
    exact completes_noted (ht.later hw₃)
  | .list es l, env, hg => by
    intro w Γ v hΓ hv
    cases hv with
    | @list _ _ _ v hv hes =>
    unfold infer
    refine .bind (completes_freshUvar hv) fun w₁ t hw₁ ht => ?_
    rw [parts_eq]
    refine .bind (completes_inferElems ht (hΓ.later hw₁) (complete_elems es env hg) hes)
      fun w₂ es' hw₂ _ => ?_
    have ht₂ := ht.later hw₂
    exact completes_noted ⟨⟨trivial, ht₂.1⟩, fun θ hθ => congrArg Ty.list (ht₂.2 θ hθ)⟩
  | .par e l, env, hg => by
    intro w Γ v hΓ hv
    cases hv with
    | par hv =>
    unfold infer
    exact .bind (complete_infer e env hg w Γ v hΓ hv) fun w₁ r _ hr => completes_noted hr

theorem complete_operands : ∀ (es : List Operand) (env : Env), env.globals.Closed →
    ∀ o ∈ es, Complete env (infer env (operand o).2) (HasType env.globals · (operand o).2)
  | [], _, _ => by simp
  | .mk op e :: es, env, hg =>
    List.forall_mem_cons.2 ⟨complete_infer e env hg, complete_operands es env hg⟩

theorem complete_elems : ∀ (es : List Expr) (env : Env), env.globals.Closed →
    ∀ e ∈ es, Complete env (infer env e) (HasType env.globals · e)
  | [], _, _ => by simp
  | e :: es, env, hg =>
    List.forall_mem_cons.2 ⟨complete_infer e env hg, complete_elems es env hg⟩

theorem completes_altRows : ∀ (as : List Alt) (env : Env), env.globals.Closed →
    ∀ {w : World} {Γ : Ctx} {s t p v : Ty}, w.Is s p → w.Is t v → w.Scope env.locals Γ →
    AltsHaveType env.globals Γ p v as →
    w.Completes ((altRows as).mapM (checkRow env [s] t)) fun _ _ => True
  | [], env, _, w, Γ, s, t, p, v, _, _, _, _ => by
    unfold altRows
    exact .pure trivial
  | .mk pat e l :: as, env, hg, w, Γ, s, t, p, v, hs, ht, hΓ, h => by
    cases h with
    | @cons _ Δ _ _ _ _ _ _ hp hn he has =>
    have hps : PatsHaveType env.globals [pat] [p] Δ := by
      simpa using PatsHaveType.cons hp .nil
    have hrow : RowHasType env.globals [pat] (HasType env.globals · e) Γ [p] v := ⟨Δ, hps, hn, he⟩
    unfold altRows
    rw [List.mapM_cons]
    refine .bind (completes_checkRow hg (.cons hs .nil) ht hΓ
      (fun b => complete_infer e (env.extend b) hg) hrow) fun w₁ m hw₁ _ => ?_
    refine .bind (completes_altRows as env hg (hs.later hw₁) (ht.later hw₁) (hΓ.later hw₁) has)
      fun _ _ _ _ => .pure trivial

end

end TypeLens.Check
