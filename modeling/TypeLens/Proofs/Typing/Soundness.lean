import TypeLens.Proofs.Checking.Substitution
import TypeLens.Proofs.Lowering.Capture
import TypeLens.Proofs.Typing.Rules

/-!
What is inferred without an error obeys the typing rules, whatever the variables that are left open
stand for.
-/

namespace TypeLens

theorem Images.Respects.of_grows {σ σ' : Subst} {θ : Assignment} (h : σ.Grows σ')
    (hθ : Respects θ σ'.images) : Respects θ σ.images := by
  rw [respects_iff σ.acyclic]
  rw [respects_iff σ'.acyclic] at hθ
  intro t
  have hgrow : σ'.images.apply (σ.images.apply t) = σ'.images.apply t := h t
  rw [← hθ (σ.images.apply t), hgrow, hθ t]

namespace Check

open Surface (Expr Pat Alt Operand OpRef)
open Typing

def Locals.types (θ : Assignment) (ids : Locals) : Ctx :=
  ids.map fun i => (i.1, i.2.scheme.body.assigned θ)

/-- All identifiers are monomorphic. -/
def Locals.Mono (ids : Locals) : Prop :=
  ∀ i ∈ ids, i.2.scheme.isMono = true ∧ i.2.scheme.body.Mono

/-- The errors among the reports. -/
def State.errors (s : State) : List Report := s.reports.filter (·.isError)

theorem Later.errors {s s' : State} (h : Later s s') : s.errors <:+ s'.errors :=
  h.reports.filter _

/-- An assignment of plain types that goes with what is known in a state. -/
structure Solves (s : State) (θ : Assignment) : Prop where
  mono (m : UVar) : (θ m).Mono
  respects : Images.Respects θ s.subst.images

theorem Solves.of_later {s s' : State} {θ : Assignment} (h : Later s s') (hθ : Solves s' θ) :
    Solves s θ := ⟨hθ.mono, hθ.respects.of_grows h.grows⟩

theorem Solves.assigned_apply {s : State} {θ : Assignment} (h : Solves s θ) (t : Ty) :
    (s.subst.apply t).assigned θ = t.assigned θ :=
  (Images.respects_iff s.subst.acyclic).1 h.respects t

/-- What an action returns satisfies `M`, and if it reports no error also `Q`, for all assignments
that satisfy `H` and go with what is known in the end. -/
def Ensures {α : Type} (H : Assignment → Prop) (act : CheckM α) (M : α → Prop)
    (Q : Assignment → α → Prop) : Prop :=
  ∀ s, s.subst.images.Mono → Later s (act.run s).2 ∧ (act.run s).2.subst.images.Mono ∧
    M (act.run s).1 ∧
    ((act.run s).2.errors = s.errors → ∀ θ, Solves (act.run s).2 θ → H θ → Q θ (act.run s).1)

namespace Ensures

variable {α β : Type} {H H' : Assignment → Prop} {act : CheckM α} {M M' : α → Prop} {N : β → Prop}
  {Q Q' : Assignment → α → Prop} {R : Assignment → β → Prop}

theorem pure {a : α} (hM : M a) (hQ : ∀ θ, (∀ m, (θ m).Mono) → H θ → Q θ a) :
    Ensures H (Pure.pure a) M Q :=
  fun s hs => ⟨.refl s, hs, hM, fun _ θ hθ => hQ θ hθ.mono⟩

theorem bind {f : α → CheckM β} (h : Ensures H act M Q)
    (hf : ∀ a, M a → Ensures (fun θ => H θ ∧ Q θ a) (f a) N R) : Ensures H (act >>= f) N R := by
  intro s hs
  obtain ⟨hl, hs', ha, hQ⟩ := h s hs
  obtain ⟨hl', hs'', hb, hR⟩ := hf _ ha _ hs'
  refine ⟨hl.trans hl', hs'', hb, fun hrep θ hθ hH => ?_⟩
  -- Errors are only added, so that there are none in the first action either.
  have hrep' : ((f (act.run s).1).run (act.run s).2).2.errors = s.errors := hrep
  have hfirst : (act.run s).2.errors = s.errors := by
    have hsuf := hl'.errors
    rw [hrep'] at hsuf
    exact hsuf.eq_of_length (Nat.le_antisymm hsuf.length_le hl.errors.length_le)
  exact hR (hrep'.trans hfirst.symm) θ hθ ⟨hH, hQ hfirst θ (hθ.of_later hl') hH⟩

/-- The same after an action that also knows what patterns have bound. -/
theorem run_bind {act : PatM α} {f : α → PatM β} {b : Bound} {M : α × Bound → Prop}
    {Q : Assignment → α × Bound → Prop} {N : β × Bound → Prop}
    {R : Assignment → β × Bound → Prop} (h : Ensures H (act.run b) M Q)
    (hf : ∀ r, M r → Ensures (fun θ => H θ ∧ Q θ r) ((f r.1).run r.2) N R) :
    Ensures H ((act >>= f).run b) N R := bind h hf

theorem run_lift {f : α → PatM β} {b : Bound} {N : β × Bound → Prop}
    {R : Assignment → β × Bound → Prop} (h : Ensures H act M Q)
    (hf : ∀ a, M a → Ensures (fun θ => H θ ∧ Q θ a) ((f a).run b) N R) :
    Ensures H ((liftM act >>= f).run b) N R := bind h hf

theorem run_get {f : Bound → PatM β} {b : Bound} {N : β × Bound → Prop}
    {R : Assignment → β × Bound → Prop} (h : Ensures H ((f b).run b) N R) :
    Ensures H ((get >>= f).run b) N R := h

theorem weaken (h : Ensures H act M Q) (hH : ∀ θ, H' θ → H θ) (hM : ∀ a, M a → M' a)
    (hQ : ∀ θ a, (∀ m, (θ m).Mono) → M a → H' θ → Q θ a → Q' θ a) : Ensures H' act M' Q' := by
  intro s hs
  obtain ⟨hl, hs', ha, h⟩ := h s hs
  exact ⟨hl, hs', hM _ ha, fun hrep θ hθ hH' => hQ θ _ hθ.mono ha hH' (h hrep θ hθ (hH θ hH'))⟩

theorem of_quiet (h : Quiet act) (hM : ∀ s, M (act.run s).1) :
    Ensures H act M fun _ _ => True := by
  intro s hs
  have hruns : Runs (fun _ => True) (fun _ => False) s (act.run s).2 := h.silent s
  exact ⟨hruns.later, mono_congr (h.image? s) hs, hM s, fun _ _ _ _ => trivial⟩

/-- An action that has to do with nothing that is said of the result. -/
theorem skip {f : α → CheckM β} (h : Quiet act) (hf : ∀ a, Ensures H (f a) N R) :
    Ensures H (act >>= f) N R :=
  bind (M := fun _ => True) (of_quiet h fun _ => trivial) fun a _ =>
    (hf a).weaken (fun _ => And.left) (fun _ => id) fun _ _ _ _ _ => id

end Ensures

variable {H : Assignment → Prop}

theorem ensures_report {p : Problem} (hp : p.severity = .error) (loc : Span) :
    Ensures H (report p loc) (fun _ => True) fun _ _ => False := by
  intro s hs
  refine ⟨((quiet_report p loc).silent s).later, hs, trivial, fun hrep => ?_⟩
  have herr : (⟨p, loc⟩ : Report).isError = true := by simp [Report.isError, hp]
  have hcons : ((report p loc).run s).2.errors = ⟨p, loc⟩ :: s.errors :=
    List.filter_cons_of_pos herr
  have hlen := congrArg List.length (hcons.symm.trans hrep)
  simp at hlen

theorem ensures_reportIf {p : Problem} (hp : p.severity = .error) (c : Bool) (loc : Span) :
    Ensures H (reportIf c p loc) (fun _ => True) fun _ _ => c = false := by
  cases c with
  | false => exact .pure trivial fun _ _ _ => rfl
  | true =>
    exact (ensures_report hp loc).weaken (fun _ => id) (fun _ => id) fun _ _ _ _ _ => False.elim

theorem ensures_freshUvar : Ensures H freshUvar Ty.Mono fun _ _ => True :=
  fun s hs => ⟨(Step.fresh (P := fun _ => True) (N := fun _ => True) s).later, hs, trivial,
    fun _ _ _ _ => trivial⟩

theorem ensures_freshFor {α : Type} (xs : List α) :
    Ensures H (freshFor xs) (fun ts => ts.length = xs.length ∧ ∀ t ∈ ts, t.Mono)
      fun _ _ => True := by
  induction xs generalizing H with
  | nil => exact .pure ⟨rfl, by simp⟩ fun _ _ _ => trivial
  | cons x xs ih =>
    refine .bind ensures_freshUvar fun t ht => .bind ih fun ts hts => ?_
    refine .pure ⟨?_, ?_⟩ fun _ _ _ => trivial
    · rw [List.length_cons, List.length_cons, hts.1]
    · exact List.forall_mem_cons.2 ⟨ht, hts.2⟩

theorem ensures_zonk {t : Ty} (ht : t.Mono) :
    Ensures H (zonk t) Ty.Mono fun θ u => u.assigned θ = t.assigned θ := by
  intro s hs
  have hlater : Later s ((zonk t).run s).2 :=
    (Step.zonk (P := fun _ => True) (N := fun _ => True) s t).later
  refine ⟨hlater, mono_congr (s.subst.image?_zonk t) hs, ?_, fun _ θ hθ _ => ?_⟩
  · rw [zonk_run_fst]
    exact Images.mono_apply hs ht
  · rw [zonk_run_fst]
    exact (hθ.of_later hlater).assigned_apply t

theorem ensures_unify {t u : Ty} (ht : t.Mono) (hu : u.Mono) (loc : Span) :
    Ensures H (unify t u loc) (fun _ => True) fun θ _ => t.assigned θ = u.assigned θ := by
  intro s hs
  have hstep : Step Ty.Mono (fun _ => True) s ((unify t u loc).run s).2 := .unify s loc ht hu
  refine ⟨hstep.later, hstep.mono hs, trivial, fun hrep θ hθ _ => ?_⟩
  cases h : (s.subst.unify t u).2 with
  | none =>
    rw [← hθ.assigned_apply t, ← hθ.assigned_apply u, unify_run_of_none loc h]
    exact congrArg (Ty.assigned θ) (Subst.unify_equates h)
  | some e =>
    obtain ⟨r, σ, hr, -, hrun⟩ := unify_run_of_some loc h
    rw [hrun] at hrep
    have hcons : (r :: s.reports).filter (·.isError) = r :: s.errors :=
      List.filter_cons_of_pos hr
    have hlen := congrArg List.length (hcons.symm.trans hrep)
    simp at hlen

theorem ensures_note (e : Inferred) : Ensures H (note e) (· = e) fun _ _ => True :=
  fun s hs => ⟨(Step.note (P := fun _ => True) (N := fun _ => True) s trivial).later, hs, rfl,
    fun _ _ _ _ => trivial⟩

/-- The last step of inferring an expression. -/
theorem ensures_noted {e : Typed.Expr} {t : Ty} {Q : Assignment → Ty → Prop} (ht : t.Mono)
    (hQ : ∀ θ, (∀ m, (θ m).Mono) → H θ → Q θ (t.assigned θ)) :
    Ensures H (note (e, t)) (fun r => r.2.Mono) fun θ r => Q θ (r.2.assigned θ) :=
  (ensures_note (e, t)).weaken (fun _ => id) (fun r hr => hr ▸ ht) fun θ r hθ hr hH _ => by
    rw [hr]
    exact hQ θ hθ hH

-- Names

theorem admits_assigned {θ : Assignment} (hθ : ∀ m, (θ m).Mono) {s : Scheme}
    (hs : s.body.uvarOccurrences = []) {ts : List Ty} (hl : ts.length = s.tvs.length)
    (hts : ∀ t ∈ ts, t.Mono) : s.Admits ((s.body.substVars (assign s.tvs ts)).assigned θ) :=
  ⟨ts.map (Ty.assigned θ), by rw [List.length_map, hl], Ty.forall_mono_assigned hθ hts,
    Ty.assigned_at θ hs s.tvs ts⟩

theorem eq_nil_of_isMono {s : Scheme} (h : s.isMono = true) : s.tvs = [] := by
  have hboth : s.tvs = [] ∧ s.preds = [] := by simpa [Scheme.isMono] using h
  exact hboth.1

theorem substVars_assign_nil (t : Ty) (ts : List Ty) : t.substVars (assign [] ts) = t := by
  have hnone : assign [] ts = fun _ => none := funext fun v => by simp [assign]
  rw [hnone, Ty.substVars_none]

/-- A local variable has its own type. -/
theorem ensures_local {h : Typed.Head} (hs : h.scheme.isMono = true) (hm : h.scheme.body.Mono)
    (occ : String) (loc : Span) :
    Ensures H (occurrence h occ loc) (fun r => r.2.Mono)
      fun θ r => r.2.assigned θ = h.scheme.body.assigned θ := by
  unfold occurrence
  dsimp only
  rw [if_pos hs]
  have hnoted := ensures_noted (H := H) (e := .head h loc)
    (Q := fun θ t => t = h.scheme.body.assigned θ) hm fun _ _ _ => rfl
  exact .bind hnoted fun r hr => .pure hr fun _ _ => And.right

theorem ensures_occurrence {h : Typed.Head} (hm : h.scheme.body.Mono)
    (hg : h.scheme.body.uvarOccurrences = []) (occ : String) (loc : Span) :
    Ensures H (occurrence h occ loc) (fun r => r.2.Mono)
      fun θ r => h.scheme.Admits (r.2.assigned θ) := by
  by_cases hs : h.scheme.isMono = true
  · have htvs := eq_nil_of_isMono hs
    refine (ensures_local hs hm occ loc).weaken (fun _ => id) (fun _ => id) fun θ r _ _ _ hr => ?_
    refine ⟨[], by simp [htvs], by simp, ?_⟩
    rw [hr, Ty.assigned_eq_self hg, htvs, substVars_assign_nil]
  · unfold occurrence
    dsimp only
    rw [if_neg hs]
    refine .bind (ensures_freshFor _) fun ts hts => .skip (quiet_wantedFor _ _ _) fun goals => ?_
    refine .skip (quiet_wanted (· ++ goals)) fun _ => ?_
    exact ensures_noted (Q := fun _ t => h.scheme.Admits t) (hm.at _ hts.2) fun θ hθ _ =>
      admits_assigned hθ hg hts.1 hts.2

theorem ensures_unknownName (env : Env) (occ : String) (loc : Span) :
    Ensures H (unknownName env occ loc) (fun r => r.2.Mono) fun _ _ => True :=
  .bind ensures_freshUvar fun _ ht => .skip (quiet_newLocal _ _ _) fun _ =>
    ensures_noted (Q := fun _ _ => True) ht fun _ _ _ => trivial

/-- After an error nothing has to be said of what follows. -/
theorem ensures_unknownAfter (env : Env) (occ : String) (loc : Span) {p : Problem}
    (hp : p.severity = .error) (Q : Assignment → Inferred → Prop) :
    Ensures H (report p loc >>= fun _ => unknownName env occ loc) (fun r => r.2.Mono) Q :=
  .bind (ensures_report hp loc) fun _ _ => (ensures_unknownName env occ loc).weaken
    (fun _ => id) (fun _ => id) fun _ _ _ _ hH _ => hH.2.elim

/-- What an action infers without an error has the type that is found. -/
def Sound (env : Env) (act : CheckM Inferred) (J : Ctx → Ty → Prop) : Prop :=
  ∀ H, Ensures H act (fun r => r.2.Mono) fun θ r => J (env.locals.types θ) (r.2.assigned θ)

theorem lookup_types (θ : Assignment) (ids : Locals) (x : String) :
    (ids.types θ).lookup x = (ids.lookup x).map fun i => i.scheme.body.assigned θ := by
  induction ids with
  | nil => rfl
  | cons i ids ih =>
    rw [Locals.types, List.map_cons, List.lookup_cons, List.lookup_cons]
    cases x == i.1 with
    | true => rfl
    | false => exact ih

theorem mem_of_lookup {ids : Locals} {x : String} {i : Typed.Ident} (h : ids.lookup x = some i) :
    (x, i) ∈ ids := by
  obtain ⟨l₁, l₂, hl, -⟩ := List.lookup_eq_some_iff.1 h
  rw [hl]
  simp

theorem severity_of_resolve {g : Globals} {space : Namespace} {role : Role} {x : String}
    {p : Problem} (h : resolve g space role x = .error p) : p.severity = .error := by
  unfold resolve at h
  split at h <;> cases h <;> rfl

theorem severity_of_resolveCon {g : Globals} {x : String} {p : Problem}
    (h : resolveCon g x = .error p) : p.severity = .error := by
  unfold resolveCon at h
  cases hn : resolve g .value .dataConstructor x with
  | error q =>
    obtain rfl : q = p := by simpa [hn, bind, Except.bind] using h
    exact severity_of_resolve hn
  | ok n =>
    simp only [hn, bind, Except.bind] at h
    split at h
    · cases h
    · cases h
      rfl

variable {env : Env}

theorem sound_inferVar (hg : env.globals.Closed) (hl : env.locals.Mono) (x : String) (loc : Span) :
    Sound env (inferVar env x loc) (VarHasType env.globals · x) := by
  intro H
  unfold inferVar
  split
  · next i hi =>
    have hmem := hl _ (mem_of_lookup hi)
    refine (ensures_local (h := .var i) hmem.1 hmem.2 x loc).weaken (fun _ => id) (fun _ => id)
      fun θ r _ _ _ hr => .bound ?_
    rw [lookup_types, hi, hr]
    rfl
  next hnone =>
  have top {n : Name} (hn : resolve env.globals .value .variable x = .ok n) {h : Typed.Head}
      (hs : env.globals.scheme? n = some h.scheme) : Ensures H (occurrence h x loc)
        (fun r => r.2.Mono)
        fun θ r => VarHasType env.globals (env.locals.types θ) x (r.2.assigned θ) := by
    refine (ensures_occurrence (hg.mono hs) (hg.ground hs) x loc).weaken (fun _ => id)
      (fun _ => id) fun θ r _ _ _ hr => .top ?_ hn hs hr
    rw [lookup_types, hnone]
    rfl
  split
  · next p hp => exact ensures_unknownAfter env x loc (severity_of_resolve hp) _
  next n hn =>
  split
  · next c hc =>
    exact top (h := .con n c.scheme) hn (by simp [Globals.scheme?, hc, Typed.Head.scheme])
  · next i hi =>
    exact top (h := .var ⟨n, i.scheme⟩) hn (by simp [Globals.scheme?, hi, Typed.Head.scheme])
  · next hcon hvar =>
    obtain ⟨s, hs⟩ := Option.isSome_iff_exists.1 (hg.denotes hn)
    obtain ⟨c, hc, -⟩ | ⟨i, hi, -⟩ := Globals.entity?_of_scheme? hs
    · exact absurd hc (hcon c)
    · exact absurd hi (hvar i)

theorem sound_inferCon (hg : env.globals.Closed) (x : String) (loc : Span) :
    Sound env (inferCon env x loc) fun _ => ConHasType env.globals x := by
  intro H
  unfold inferCon
  split
  · next p hp => exact ensures_unknownAfter env x loc (severity_of_resolve hp) _
  next n hn =>
  split
  · next c hc =>
    have hs : env.globals.scheme? n = some (Typed.Head.con n c.scheme).scheme := by
      simp [Globals.scheme?, hc, Typed.Head.scheme]
    have hres : resolveCon env.globals x = .ok c := by
      simp [resolveCon, hn, hc, bind, Except.bind, pure, Except.pure]
    exact (ensures_occurrence (hg.mono hs) (hg.ground hs) x loc).weaken (fun _ => id)
      (fun _ => id) fun θ r _ _ _ hr => ⟨c, hres, hr⟩
  · exact ensures_unknownAfter env x loc rfl _

theorem sound_inferOp (hg : env.globals.Closed) (hl : env.locals.Mono) (op : OpRef) :
    Sound env (inferOp env op) (OpHasType env.globals · op) := by
  intro H
  unfold inferOp OpHasType
  split
  · exact sound_inferCon hg op.name op.loc H
  · exact sound_inferVar hg hl op.name op.loc H

-- Patterns

/-- What patterns bind in addition has types that obey a rule, and no variable comes twice. -/
def Binds (J : Ctx → Prop) (θ : Assignment) (b b' : Bound) : Prop :=
  ∃ d : Bound, b' = b ++ d ∧ (b.keys.Nodup → b'.keys.Nodup) ∧ J (Locals.types θ d)

theorem Binds.refl {J : Ctx → Prop} {θ : Assignment} {b : Bound} (h : J []) : Binds J θ b b :=
  ⟨[], (List.append_nil b).symm, id, h⟩

theorem Binds.mono {J J' : Ctx → Prop} {θ : Assignment} {b b' : Bound} (h : Binds J θ b b')
    (hJ : ∀ Γ, J Γ → J' Γ) : Binds J' θ b b' := by
  obtain ⟨d, hd, hn, h⟩ := h
  exact ⟨d, hd, hn, hJ _ h⟩

theorem types_append (θ : Assignment) (d d' : Locals) :
    Locals.types θ (d ++ d') = d.types θ ++ d'.types θ := List.map_append ..

theorem Binds.trans {J J' K : Ctx → Prop} {θ : Assignment} {b b' b'' : Bound}
    (h : Binds J θ b b') (h' : Binds J' θ b' b'') (hK : ∀ Γ Δ, J Γ → J' Δ → K (Γ ++ Δ)) :
    Binds K θ b b'' := by
  obtain ⟨d, rfl, hn, h⟩ := h
  obtain ⟨d', rfl, hn', h'⟩ := h'
  refine ⟨d ++ d', List.append_assoc .., fun hb => hn' (hn hb), ?_⟩
  rw [types_append]
  exact hK _ _ h h'

theorem Binds.put {J : Ctx → Prop} {θ : Assignment} {b : Bound} {x : String} {i : Typed.Ident}
    (hx : b.contains x = false) (h : J [(x, i.scheme.body.assigned θ)]) :
    Binds J θ b (b.put x i) := by
  have hnone : b.get? x = none := by
    simpa only [Table.contains, Option.isSome_eq_false_iff, Option.isNone_iff_eq_none] using hx
  refine ⟨[(x, i)], Table.put_of_none hnone i, fun hb => ?_, h⟩
  rw [Table.put_of_none hnone, Table.keys, List.map_append, List.nodup_append]
  refine ⟨hb, by simp, fun y hy z hz => ?_⟩
  obtain rfl : z = x := List.mem_singleton.1 hz
  rintro rfl
  exact Table.get?_eq_none_iff.1 hnone hy

theorem ensures_newLocal (env : Env) (x : String) (t : Ty) :
    Ensures H (newLocal env x t) (·.scheme = .mono t) fun _ _ => True :=
  .of_quiet (quiet_newLocal env x t) fun _ => rfl

mutual

theorem ensures_checkPat (hg : env.globals.Closed) : ∀ (p : Pat) (t : Ty) (b : Bound)
    (H : Assignment → Prop), t.Mono → Locals.Mono b →
    Ensures H ((checkPat env [] p t).run b) (fun r => Locals.Mono r.2)
      fun θ r => Binds (PatHasType env.globals p (t.assigned θ)) θ b r.2
  | .var x l, t, b, H, ht, hb => by
    unfold checkPat
    refine .run_get ?_
    refine .run_lift (ensures_reportIf (p := .definedTwice x) rfl (b.contains x) l) fun _ _ => ?_
    refine .run_lift (ensures_newLocal env x t) fun i hi => .pure ?_ fun θ hθ hH => ?_
    · refine Table.forall_mem_put hb ?_
      rw [hi]
      exact ⟨rfl, ht⟩
    · refine .put hH.1.2 ?_
      rw [hi]
      exact .var (ht.assigned hθ)
  | .wild l, t, b, H, ht, hb => by
    unfold checkPat
    exact .pure hb fun θ hθ _ => .refl (.wild (ht.assigned hθ))
  | .lit v l, t, b, H, ht, hb => by
    unfold checkPat
    refine .run_lift (ensures_unify ht (Ty.mono_literal v) l) fun _ _ => ?_
    refine .pure hb fun θ _ hH => .refl ?_
    rw [hH.2, Ty.assigned_eq_self (Ty.uvarOccurrences_literal v)]
    exact .lit
  | .par p l, t, b, H, ht, hb => by
    unfold checkPat
    refine .run_bind (ensures_checkPat hg p t b H ht hb) fun r hr => .pure hr fun θ _ hH => ?_
    exact hH.2.mono fun _ => .par
  | .con x ps l, t, b, H, ht, hb => by
    unfold checkPat
    split
    · next e he =>
      refine .run_lift (ensures_report (severity_of_resolveCon he) l) fun _ _ => ?_
      refine .run_bind (ensures_freshPats hg ps b _ hb) fun r hr => .pure hr fun θ _ hH => ?_
      exact hH.1.2.elim
    next c hc =>
    obtain ⟨r, hr, hargs, hres, hargs', hres'⟩ := closed_con hg hc
    split
    · next hlen =>
      refine .run_lift (ensures_freshFor _) fun ts hts => ?_
      have hresult : (c.scheme.body.splitFns ps.length).2 = r := by
        rw [hr, ← hlen, Ty.splitFns_fns]
      refine .run_lift (ensures_unify ht ?_ l) fun _ _ => ?_
      · rw [hresult]
        exact hres.at _ hts.2
      let at_ := assign c.scheme.tvs ts
      have hargs_mono : ∀ u ∈ c.argTypes.map (·.substVars at_), u.Mono := by
        intro u hu
        obtain ⟨a, ha, rfl⟩ := List.mem_map.1 hu
        exact (hargs a ha).at _ hts.2
      have hargs_len : (c.argTypes.map (·.substVars at_)).length = ps.length := by
        rw [List.length_map, hlen]
      refine .run_bind (ensures_checkPats hg ps _ b _ hargs_len hargs_mono hb) fun b' hb' => ?_
      refine .pure hb' fun θ hθ hH => hH.2.mono fun Γ hΓ => ?_
      rw [hH.1.2, hresult, Ty.assigned_at θ hres']
      refine .con hc hlen hr (by rw [List.length_map, hts.1]) (Ty.forall_mono_assigned hθ hts.2) ?_
      have heq : (c.argTypes.map (·.substVars at_)).map (Ty.assigned θ) =
          c.argTypes.map (·.substVars (assign c.scheme.tvs (ts.map (Ty.assigned θ)))) := by
        rw [List.map_map]
        exact List.map_congr_left fun a ha => Ty.assigned_at θ (hargs' a ha) _ _
      rwa [heq] at hΓ
    · refine .run_lift (ensures_report rfl l) fun _ _ => .pure hb fun θ _ hH => ?_
      exact hH.2.elim

theorem ensures_checkPats (hg : env.globals.Closed) : ∀ (ps : List Pat) (ts : List Ty) (b : Bound)
    (H : Assignment → Prop), ts.length = ps.length → (∀ t ∈ ts, t.Mono) → Locals.Mono b →
    Ensures H ((checkPats env [] ps ts).run b) (fun r => Locals.Mono r.2)
      fun θ r => Binds (PatsHaveType env.globals ps (ts.map (Ty.assigned θ))) θ b r.2
  | [], [], b, H, _, _, hb => by
    unfold checkPats
    exact .pure hb fun θ _ _ => .refl .nil
  | p :: ps, t :: ts, b, H, hl, hts, hb => by
    obtain ⟨ht, hts⟩ := List.forall_mem_cons.1 hts
    unfold checkPats
    refine .run_bind (ensures_checkPat hg p t b H ht hb) fun r hr => ?_
    refine .run_bind (ensures_checkPats hg ps ts r.2 _ (Nat.succ.inj hl) hts hr) fun r' hr' => ?_
    exact .pure hr' fun θ _ hH => hH.1.2.trans hH.2 fun _ _ => .cons

theorem ensures_freshPats (hg : env.globals.Closed) : ∀ (ps : List Pat) (b : Bound)
    (H : Assignment → Prop), Locals.Mono b →
    Ensures H ((freshPats env [] ps).run b) (fun r => Locals.Mono r.2) fun _ _ => True
  | [], b, H, hb => by
    unfold freshPats
    exact .pure hb fun _ _ _ => trivial
  | p :: ps, b, H, hb => by
    unfold freshPats
    refine .run_lift ensures_freshUvar fun t ht => ?_
    refine .run_bind (ensures_checkPat hg p t b _ ht hb) fun r hr => ?_
    exact (ensures_freshPats hg ps r.2 _ hr).weaken (fun _ => id) (fun _ => id)
      fun _ _ _ _ _ => id

end

-- Equations

/-- The equation of a row matches types and has a result as a rule demands. -/
def RowHasType (g : Globals) (ps : List Pat) (J : Ctx → Ty → Prop) (Γ : Ctx) (ts : List Ty)
    (t : Ty) : Prop :=
  ∃ Δ, PatsHaveType g ps ts Δ ∧ (Δ.map Prod.fst).Nodup ∧ J (Δ ++ Γ) t

section

variable {J : Ctx → Ty → Prop} {rhs : Env → CheckM Inferred}

theorem ensures_checkRow (hg : env.globals.Closed) (hl : env.locals.Mono) {argTys : List Ty}
    {resTy : Ty} {ps : List Pat} {l rl : Span} (hlen : argTys.length = ps.length)
    (hargs : ∀ t ∈ argTys, t.Mono) (hres : resTy.Mono)
    (hr : ∀ b : Bound, (env.extend b).locals.Mono → Sound (env.extend b) (rhs (env.extend b)) J) :
    Ensures H (checkRow env argTys resTy ⟨ps, l, rl, rhs⟩) (fun _ => True) fun θ _ =>
      RowHasType env.globals ps J (env.locals.types θ) (argTys.map (Ty.assigned θ))
        (resTy.assigned θ) := by
  have hpats := ensures_checkPats (H := H) hg ps argTys [] hlen hargs fun _ h => nomatch h
  refine .bind hpats fun r hb => ?_
  have hmono : (env.extend r.2).locals.Mono := List.forall_mem_append.2 ⟨hb, hl⟩
  refine .bind (hr r.2 hmono _) fun e he => .bind (ensures_unify hres he rl) fun _ _ => ?_
  refine .pure trivial ?_
  rintro θ - ⟨⟨⟨-, hbinds⟩, he⟩, heq⟩
  obtain ⟨d, hd, hnodup, hps⟩ := hbinds
  obtain rfl : r.2 = d := hd
  have hkeys : ((Locals.types θ r.2).map Prod.fst).Nodup := by
    rw [Locals.types, List.map_map]
    exact hnodup List.nodup_nil
  refine ⟨Locals.types θ r.2, hps, hkeys, ?_⟩
  rw [heq, ← types_append]
  exact he

theorem ensures_checkGroup (hg : env.globals.Closed) (hl : env.locals.Mono) {expected : Ty}
    (hexpected : expected.Mono) {ps : List Pat} {l rl : Span}
    (hr : ∀ b : Bound, (env.extend b).locals.Mono → Sound (env.extend b) (rhs (env.extend b)) J) :
    Ensures H (checkGroup env expected ⟨ps, l, rl, rhs⟩ []) (fun g => g.ty.Mono) fun θ g =>
      RowHasType env.globals ps J (env.locals.types θ) (g.argTys.map (Ty.assigned θ))
        (g.resTy.assigned θ) := by
  unfold checkGroup
  refine .bind (ensures_freshFor ps) fun ts hts => .bind ensures_freshUvar fun t ht => ?_
  have hfns : (Ty.fns ts t).Mono := Ty.mono_fns.2 ⟨hts.2, ht⟩
  refine .bind (ensures_unify hexpected hfns l) fun _ _ => ?_
  rw [List.mapM_cons, List.mapM_nil]
  refine .bind (M := fun _ => True)
    (Q := fun θ _ => RowHasType env.globals ps J (env.locals.types θ) (ts.map (Ty.assigned θ))
      (t.assigned θ)) ?_ fun ms _ => .pure hfns fun θ _ hH => hH.2
  refine .bind (ensures_checkRow hg hl hts.1 hts.2 ht hr) fun m _ => ?_
  exact .pure trivial fun θ _ hH => hH.2

end

-- Operators

/-- What is still to be inferred for an operand. -/
def part (env : Env) (e : Expr) : Part := ⟨e.loc, infer env e⟩

theorem parts_eq (env : Env) (es : List Expr) : parts env es = es.map (part env) := by
  induction es with
  | nil => rfl
  | cons e es ih =>
    rw [parts, ih]
    rfl

theorem operands_eq (env : Env) (es : List Operand) :
    operands env es = (es.map operand).map (Prod.map id (part env)) := by
  induction es with
  | nil => rfl
  | cons o es ih =>
    obtain ⟨op, e⟩ := o
    rw [operands, ih]
    rfl

/-- Fixities depend on which variables are local, and not on their types. -/
theorem opFixity_eq {Γ : Ctx}
    (h : ∀ x, (env.locals.lookup x).isSome = (Γ.lookup x).isSome) :
    opFixity env = fixityIn env.globals Γ := by
  funext op
  cases hn : resolve env.globals .value .variable op.name with
  | ok n => simp only [opFixity, fixityIn, h, hn]
  | error p => simp only [opFixity, fixityIn, h, hn]

theorem opFixity_types (env : Env) (θ : Assignment) :
    opFixity env = fixityIn env.globals (env.locals.types θ) :=
  opFixity_eq fun x => by rw [lookup_types, Option.isSome_map]

theorem ensures_conflicts {ω : Type} (p : ω → Problem) (hp : ∀ c, (p c).severity = .error)
    (loc : ω → Span) (cs : List ω) :
    Ensures H (cs.forM fun c => report (p c) (loc c)) (fun _ => True) fun _ _ => cs = [] := by
  cases cs with
  | nil => exact .pure trivial fun _ _ _ => rfl
  | cons c cs =>
    refine .bind (ensures_report (hp c) (loc c)) fun _ _ => ?_
    have hrest : Quiet (cs.forM fun c => report (p c) (loc c)) :=
      ⟨.forM fun c _ => (quiet_report _ _).silent, fun s => by
        induction cs generalizing s with
        | nil => rfl
        | cons c cs ih => exact ih _⟩
    exact (Ensures.of_quiet (M := fun _ => True) hrest fun _ => trivial).weaken (fun _ => id)
      (fun _ => id) fun _ _ _ _ hH _ => hH.2.elim

theorem sound_inferTree (hg : env.globals.Closed) (hl : env.locals.Mono) {tree : OpTree OpRef Expr}
    (h : ∀ e ∈ tree.operands, Sound env (infer env e) (HasType env.globals · e)) :
    Sound env (inferTree env (tree.map (part env))) (TreeHasType env.globals · tree) := by
  induction tree with
  | leaf e =>
    intro H
    exact (h e (List.mem_singleton.2 rfl) H).weaken (fun _ => id) (fun _ => id)
      fun _ _ _ _ _ => .leaf
  | node x op y ihx ihy =>
    simp only [OpTree.operands, List.mem_append] at h
    intro H
    unfold OpTree.map inferTree
    refine .bind (ihx (fun e he => h e (.inl he)) _) fun x' hx' => ?_
    refine .bind (sound_inferOp hg hl op _) fun op' hop' => ?_
    refine .bind (ihy (fun e he => h e (.inr he)) _) fun y' hy' => ?_
    refine .bind ensures_freshUvar fun res hres => .bind (ensures_zonk hop') fun u hu => ?_
    split
    · next p q t ht =>
      rw [Ty.eq_fn_of_splitFns ht] at hu ⊢
      obtain ⟨⟨-, hp⟩, ⟨-, hq⟩, ht⟩ := hu
      refine .bind (ensures_unify hp hx' _) fun _ _ => .bind (ensures_unify hq hy' _) fun _ _ => ?_
      refine ensures_noted (Q := fun θ => TreeHasType env.globals (env.locals.types θ) _) ht ?_
      rintro θ - ⟨⟨⟨⟨⟨⟨⟨-, hx⟩, hop⟩, hy⟩, -⟩, hzonk⟩, hp⟩, hq⟩
      have hfn : op'.2.assigned θ =
          .fn (x'.2.assigned θ) (.fn (y'.2.assigned θ) (t.assigned θ)) := by
        rw [← hzonk, ← hp, ← hq]
        rfl
      rw [hfn] at hop
      exact .node hx hop hy
    · have hfns : (Ty.fns [x'.2, y'.2] res).Mono :=
        Ty.mono_fns.2 ⟨by simp [hx', hy'], hres⟩
      refine .bind (ensures_unify hfns hop' _) fun _ _ => ?_
      refine ensures_noted (Q := fun θ => TreeHasType env.globals (env.locals.types θ) _) hres ?_
      rintro θ - ⟨⟨⟨⟨⟨⟨-, hx⟩, hop⟩, hy⟩, -⟩, -⟩, heq⟩
      rw [← heq] at hop
      exact .node hx hop hy

theorem sound_inferRow (hg : env.globals.Closed) (hl : env.locals.Mono) {e : Expr}
    {es : List Operand} (l : Span) (he : Sound env (infer env e) (HasType env.globals · e))
    (hes : ∀ o ∈ es, Sound env (infer env (operand o).2) (HasType env.globals · (operand o).2)) :
    Sound env (inferRow env (part env e) (operands env es))
      (HasType env.globals · (.row e es l)) := by
  intro H
  unfold inferRow
  rw [operands_eq, OpTree.resolve_map]
  dsimp only
  refine .bind (ensures_conflicts _ (fun _ => rfl) _ _) fun _ _ => ?_
  refine (sound_inferTree hg hl (fun e' he' => ?_) _).weaken (fun _ => id) (fun _ => id) ?_
  · rw [OpTree.operands_resolve, List.map_map] at he'
    rcases List.mem_cons.1 he' with rfl | he'
    · exact he
    · obtain ⟨o, ho, rfl⟩ := List.mem_map.1 he'
      exact hes o ho
  · intro θ r _ _ hH hr
    have hconflicts := hH.2
    rw [opFixity_types env θ] at hconflicts hr
    let resolved := OpTree.resolve (fixityIn env.globals (env.locals.types θ)) e (es.map operand)
    have hresolved : resolved = ⟨resolved.tree, []⟩ := by rw [← hconflicts]
    exact .row hresolved hr

-- Expressions

theorem ensures_inferElems {t : Ty} (ht : t.Mono) {es : List Expr}
    (h : ∀ e ∈ es, Sound env (infer env e) (HasType env.globals · e)) :
    Ensures H (inferElems t (es.map (part env))) (fun _ => True) fun θ _ =>
      ElemsHaveType env.globals (env.locals.types θ) (t.assigned θ) es := by
  induction es generalizing H with
  | nil => exact .pure trivial fun _ _ _ => .nil
  | cons e es ih =>
    obtain ⟨he, hes⟩ := List.forall_mem_cons.1 h
    refine .bind (he _) fun r hr => .bind (ensures_unify ht hr _) fun _ _ => ?_
    refine .bind (ih hes) fun _ _ => .pure trivial ?_
    rintro θ - ⟨⟨⟨-, he⟩, heq⟩, hes⟩
    rw [← heq] at he
    exact .cons he hes

theorem RowHasType.single {g : Globals} {p : Pat} {J : Ctx → Ty → Prop} {Γ : Ctx} {s t : Ty}
    (h : RowHasType g [p] J Γ [s] t) :
    ∃ Δ, PatHasType g p s Δ ∧ (Δ.map Prod.fst).Nodup ∧ J (Δ ++ Γ) t := by
  obtain ⟨Δ, hps, hn, hJ⟩ := h
  cases hps with
  | @cons _ _ _ _ Δ _ hp hps =>
    cases hps
    rw [List.append_nil] at hn hJ
    exact ⟨Δ, hp, hn, hJ⟩

theorem sound_app {f a : Expr} (l : Span) (hf : Sound env (infer env f) (HasType env.globals · f))
    (ha : Sound env (infer env a) (HasType env.globals · a)) :
    Sound env (infer env (.app f a l)) (HasType env.globals · (.app f a l)) := by
  intro H
  unfold infer
  refine .bind (hf _) fun f' hf' => .bind (ha _) fun a' ha' => ?_
  refine .bind (ensures_zonk hf') fun u hu => ?_
  split
  · next p t ht =>
    rw [Ty.eq_fn_of_splitFn? ht] at hu ⊢
    obtain ⟨⟨-, hp⟩, ht⟩ := hu
    refine .bind (ensures_unify hp ha' _) fun _ _ => ?_
    refine ensures_noted (Q := fun θ => HasType env.globals (env.locals.types θ) _) ht ?_
    rintro θ - ⟨⟨⟨⟨-, hf⟩, ha⟩, hzonk⟩, hp⟩
    have hfn : f'.2.assigned θ = .fn (a'.2.assigned θ) (t.assigned θ) := by
      rw [← hzonk, ← hp]
      rfl
    rw [hfn] at hf
    exact .app hf ha
  · refine .bind ensures_freshUvar fun t ht => ?_
    have hfn : (Ty.fn a'.2 t).Mono := ⟨⟨trivial, ha'⟩, ht⟩
    refine .bind (ensures_unify hfn hf' _) fun _ _ => ?_
    refine ensures_noted (Q := fun θ => HasType env.globals (env.locals.types θ) _) ht ?_
    rintro θ - ⟨⟨⟨⟨⟨-, hf⟩, ha⟩, -⟩, -⟩, heq⟩
    rw [← heq] at hf
    exact .app hf ha

mutual

/-- By recursion on the tree, with one theorem for each form of list in it. -/
theorem sound_infer : ∀ (e : Expr) (env : Env), env.globals.Closed → env.locals.Mono → LetFree e →
    Sound env (infer env e) (HasType env.globals · e)
  | .var x l, env, hg, hl, _ => by
    intro H
    unfold infer
    exact (sound_inferVar hg hl x l H).weaken (fun _ => id) (fun _ => id) fun _ _ _ _ _ => .var
  | .con x l, env, hg, _, _ => by
    intro H
    unfold infer
    exact (sound_inferCon hg x l H).weaken (fun _ => id) (fun _ => id) fun _ _ _ _ _ => .con
  | .lit v l, env, _, _, _ => by
    intro H
    unfold infer
    refine ensures_noted (Q := fun θ => HasType env.globals (env.locals.types θ) _)
      (Ty.mono_literal v) ?_
    intro θ _ _
    rw [Ty.assigned_eq_self (Ty.uvarOccurrences_literal v)]
    exact .lit
  | .app f a l, env, hg, hl, h =>
    sound_app l (sound_infer f env hg hl h.1) (sound_infer a env hg hl h.2)
  | .row e es l, env, hg, hl, h => by
    unfold infer
    exact sound_inferRow hg hl l (sound_infer e env hg hl h.1) (sound_operands es env hg hl h.2)
  | .lambda ps e l, env, hg, hl, h => by
    intro H
    unfold infer
    refine .bind ensures_freshUvar fun t ht => ?_
    refine .bind (ensures_checkGroup (J := (HasType env.globals · e)) hg hl ht fun b hb =>
      sound_infer e (env.extend b) hg hb h) fun g hty => ?_
    refine ensures_noted (Q := fun θ => HasType env.globals (env.locals.types θ) _) hty ?_
    rintro θ - ⟨-, Δ, hps, hn, he⟩
    have hassigned : g.ty.assigned θ = .fns (g.argTys.map (Ty.assigned θ)) (g.resTy.assigned θ) :=
      Ty.substUvars_fns _ _ _
    rw [hassigned]
    exact .lambda hps hn he
  | .letIn _ _ _, _, _, _, h => h.elim
  | .ifThenElse c y n l, env, hg, hl, h => by
    intro H
    unfold infer
    refine .bind (sound_infer c env hg hl h.1 _) fun c' hc' => ?_
    refine .bind (ensures_unify (t := .bool) trivial hc' _) fun _ _ => ?_
    refine .bind (sound_infer y env hg hl h.2.1 _) fun y' hy' => ?_
    refine .bind (sound_infer n env hg hl h.2.2 _) fun n' hn' => ?_
    refine .bind (ensures_unify hy' hn' _) fun _ _ => ?_
    refine ensures_noted (Q := fun θ => HasType env.globals (env.locals.types θ) _) hy' ?_
    rintro θ - ⟨⟨⟨⟨⟨-, hc⟩, hbool⟩, hy⟩, hn⟩, heq⟩
    rw [← hbool] at hc
    rw [← heq] at hn
    exact .ifThenElse hc hy hn
  | .caseOf s as l, env, hg, hl, h => by
    intro H
    unfold infer
    refine .bind (sound_infer s env hg hl h.1 _) fun s' hs' => ?_
    refine .bind ensures_freshUvar fun t ht => ?_
    refine .bind (sound_altRows as env hg hl h.2 hs' ht _) fun ms _ => ?_
    refine ensures_noted (Q := fun θ => HasType env.globals (env.locals.types θ) _) ht ?_
    rintro θ hθ ⟨⟨⟨-, hs⟩, -⟩, has⟩
    exact .caseOf hs (ht.assigned hθ) has
  | .list es l, env, hg, hl, h => by
    intro H
    unfold infer
    refine .bind ensures_freshUvar fun t ht => ?_
    rw [parts_eq]
    refine .bind (ensures_inferElems ht (sound_elems es env hg hl h)) fun es' _ => ?_
    have hlist : (Ty.list t).Mono := ⟨trivial, ht⟩
    refine ensures_noted (Q := fun θ => HasType env.globals (env.locals.types θ) _) hlist ?_
    exact fun θ hθ hH => .list (ht.assigned hθ) hH.2
  | .par e l, env, hg, hl, h => by
    intro H
    unfold infer
    refine .bind (sound_infer e env hg hl h _) fun r hr => ?_
    refine ensures_noted (Q := fun θ => HasType env.globals (env.locals.types θ) _) hr ?_
    exact fun θ _ hH => .par hH.2

theorem sound_operands : ∀ (es : List Operand) (env : Env), env.globals.Closed → env.locals.Mono →
    OperandsLetFree es →
    ∀ o ∈ es, Sound env (infer env (operand o).2) (HasType env.globals · (operand o).2)
  | [], _, _, _, _ => by simp
  | .mk op e :: es, env, hg, hl, h =>
    List.forall_mem_cons.2 ⟨sound_infer e env hg hl h.1, sound_operands es env hg hl h.2⟩

theorem sound_elems : ∀ (es : List Expr) (env : Env), env.globals.Closed → env.locals.Mono →
    ElemsLetFree es → ∀ e ∈ es, Sound env (infer env e) (HasType env.globals · e)
  | [], _, _, _, _ => by simp
  | e :: es, env, hg, hl, h =>
    List.forall_mem_cons.2 ⟨sound_infer e env hg hl h.1, sound_elems es env hg hl h.2⟩

theorem sound_altRows : ∀ (as : List Alt) (env : Env), env.globals.Closed → env.locals.Mono →
    AltsLetFree as → ∀ {s t : Ty}, s.Mono → t.Mono → ∀ H : Assignment → Prop,
    Ensures H ((altRows as).mapM (checkRow env [s] t)) (fun _ => True) fun θ _ =>
      AltsHaveType env.globals (env.locals.types θ) (s.assigned θ) (t.assigned θ) as
  | [], env, _, _, _, s, t, _, _, H => by
    unfold altRows
    exact .pure trivial fun _ _ _ => .nil
  | .mk p e l :: as, env, hg, hl, h, s, t, hs, ht, H => by
    unfold altRows
    rw [List.mapM_cons]
    have hscrut : ∀ u ∈ [s], u.Mono := List.forall_mem_singleton.2 hs
    refine .bind (ensures_checkRow (J := (HasType env.globals · e)) hg hl rfl hscrut ht fun b hb =>
      sound_infer e (env.extend b) hg hb h.1) fun m _ => ?_
    refine .bind (sound_altRows as env hg hl h.2 hs ht _) fun ms _ => .pure trivial ?_
    rintro θ - ⟨⟨-, hrow⟩, has⟩
    obtain ⟨Δ, hp, hn, he⟩ := hrow.single
    exact .cons hp hn he has

end

end Check

end TypeLens
