import TypeLens.Core.Lowering
import TypeLens.Proofs.Lowering.Capture

/-!
Types of lowered terms. The term of an expression has the type that the expression has by the types
of its parts, at least up to a relation that functions respect; at a polymorphic name that is the
name's type at its type arguments.
-/

namespace TypeLens

namespace Core

-- The equations of lowering are derived here at once, and not by each proof that unfolds it.
section

attribute [local simp] Lower.expr Lower.matchPat

end

/-- The names that lowering makes up mean what they mean in the bundled module. -/
structure Context.KnowsBuiltins (c : Context) : Prop where
  nil (d : DataCon) : c.entity? Builtin.nilCon = some (.dataCon d) →
    d.scheme = ⟨["a"], [], .list (.var "a")⟩
  cons (d : DataCon) : c.entity? Builtin.consCon = some (.dataCon d) →
    d.scheme = ⟨["a"], [], .fns [.var "a", .list (.var "a")] (.list (.var "a"))⟩
  patError (i : Identifier) : c.entity? Builtin.patError = some (.ident i) →
    i.scheme = ⟨["a"], [], .var "a"⟩

theorem Context.knowsBuiltins_of_isNone {c : Context} (hnil : (c.entity? Builtin.nilCon).isNone)
    (hcons : (c.entity? Builtin.consCon).isNone) (herr : (c.entity? Builtin.patError).isNone) :
    c.KnowsBuiltins where
  nil d h := by simp [h] at hnil
  cons d h := by simp [h] at hcons
  patError i h := by simp [h] at herr

/-- What is related to a function is a function to a related result. -/
structure Functional (R : Ty → Ty → Prop) : Prop where
  refl (t : Ty) : R t t
  fn {p t u : Ty} : R t u → R (.fn p t) (.fn p u)
  of_fn {p t v : Ty} : R (.fn p t) v → ∃ q u, v = .fn q u ∧ R t u

theorem functional_eq : Functional (· = ·) where
  refl _ := rfl
  fn h := congrArg _ h
  of_fn h := ⟨_, _, h.symm, rfl⟩

theorem Functional.fns {R : Ty → Ty → Prop} (hR : Functional R) (ts : List Ty) {t u : Ty}
    (h : R t u) : R (.fns ts t) (.fns ts u) := by
  induction ts with
  | nil => exact h
  | cons p ts ih => exact hR.fn ih

/-- A term has a type that is related to `t`. -/
def Term.HasType (R : Ty → Ty → Prop) (e : Term) (t : Ty) : Prop := ∃ u, e.type = .ok u ∧ R t u

theorem hasType_eq_iff {e : Term} {t : Ty} : e.HasType (· = ·) t ↔ e.type = .ok t := by
  simp [Term.HasType]

/-- If an expression has a core term, then that has a type that is related to `t`. -/
def LowersAt (R : Ty → Ty → Prop) (c : Context) (e : Typed.Expr) (t : Ty) : Prop :=
  ∀ n r, (Lower.expr c e).run n = .ok r → r.1.HasType R t

theorem type_app {f x : Term} {p t : Ty} (h : f.type = .ok (.fn p t)) :
    (Term.app f x).type = .ok t := by
  simp [Term.type, h, bind, Except.bind, pure, Except.pure]

theorem Term.HasType.app {R : Ty → Ty → Prop} (hR : Functional R) {f x : Term} {p t : Ty}
    (h : f.HasType R (.fn p t)) : (Term.app f x).HasType R t := by
  obtain ⟨v, hv, hfn⟩ := h
  obtain ⟨q, u, rfl, htu⟩ := hR.of_fn hfn
  exact ⟨u, type_app hv, htu⟩

theorem type_tyApp {f : Term} {t u : Ty} {ts : List Ty} (h : f.type = .ok t)
    (hu : t.instantiate ts = .ok u) : (Term.tyApp f ts).type = .ok u := by
  have hty : (Term.tyApp f ts).type = (t.instantiate ts).mapError .application := by
    simp [Term.type, h, bind, Except.bind]
  rw [hty, hu]
  rfl

theorem type_lams {bs : List Binder} {e : Term} {t : Ty} (h : e.type = .ok t) :
    (Lower.lams bs e).type = .ok (.fns (bs.map (·.ty)) t) := by
  induction bs with
  | nil => exact h
  | cons b bs ih =>
    simp only [Lower.lams, List.foldr_cons] at ih ⊢
    simp [Term.type, ih, bind, Except.bind, pure, Except.pure, Ty.fns]

theorem type_lets (bs : List Bind) (e : Term) : (Lower.lets bs e).type = e.type := by
  induction bs with
  | nil => rfl
  | cons b bs ih =>
    simp only [Lower.lets, List.foldr_cons] at ih ⊢
    rw [Term.type, ih]

theorem type_foldl_app {args : List Term} {f : Term} {ps : List Ty} {t : Ty}
    (h : f.type = .ok (.fns ps t)) (hl : args.length = ps.length) :
    (args.foldl .app f).type = .ok t := by
  induction args generalizing f ps with
  | nil =>
    obtain rfl := List.length_eq_zero_iff.1 hl.symm
    exact h
  | cons x args ih =>
    cases ps with
    | nil => cases hl
    | cons p ps => exact ih (type_app h) (Nat.succ.inj hl)

theorem instantiate_forAll {tvs : List String} {ts : List Ty} (h : ts.length = tvs.length)
    (t : Ty) : (Ty.forAll tvs t).instantiate ts = .ok (t.substVars (assign tvs ts)) := by
  simp [Ty.instantiate, h]

theorem type_inst {h : Typed.Head} {ts : List Ty} {args : List Term}
    (hts : ts.length = h.scheme.tvs.length) (hargs : args.length = h.scheme.preds.length) :
    (args.foldl .app (Lower.atTypes (Lower.head h) ts)).type =
      .ok (h.scheme.body.substVars (assign h.scheme.tvs ts)) := by
  have hhead : (Lower.head h).type = .ok h.scheme.toTy := by
    cases h with
    | var | con => rfl
  generalize h.scheme = s at hts hargs hhead ⊢
  obtain ⟨tvs, preds, body⟩ := s
  cases tvs with
  | nil =>
    obtain rfl := List.length_eq_zero_iff.1 hts
    have hnone : assign ([] : List String) ([] : List Ty) = fun _ => none := rfl
    simp only [hnone, Ty.substVars_none]
    have hlen : args.length = (preds.map Pred.ty).length := by rw [List.length_map, hargs]
    exact type_foldl_app hhead hlen
  | cons v tvs =>
    have hne : ts.isEmpty = false := by cases ts <;> simp_all
    have hat : (Lower.atTypes (Lower.head h) ts).type = .ok (.fns
        ((preds.map Pred.ty).map (·.substVars (assign (v :: tvs) ts)))
        (body.substVars (assign (v :: tvs) ts))) := by
      simp only [Lower.atTypes, hne, Bool.false_eq_true, if_false]
      refine type_tyApp hhead ?_
      rw [← Ty.substVars_fns]
      exact instantiate_forAll hts _
    refine type_foldl_app hat ?_
    rw [List.length_map, List.length_map, hargs]

-- The monad

theorem run_bind_eq_ok {α β : Type} {m : LowerM α} {f : α → LowerM β} {n : Nat} {r : β × Nat} :
    (m >>= f).run n = .ok r ↔ ∃ x, m.run n = .ok x ∧ (f x.1).run x.2 = .ok r := by
  rw [StateT.run_bind]
  cases h : m.run n with
  | error e => simp [bind, Except.bind]
  | ok x => simp [bind, Except.bind]

theorem run_pure_eq_ok {α : Type} {a : α} {n : Nat} {r : α × Nat}
    (h : (pure a : LowerM α).run n = .ok r) : r.1 = a := by
  cases h
  rfl

theorem run_lift_eq_ok {α : Type} {x : Except LowerError α} {n : Nat} {r : α × Nat}
    (h : (liftM x : LowerM α).run n = .ok r) : x = .ok r.1 := by
  cases x with
  | error e => cases h
  | ok a => cases h; rfl

theorem run_typeOf_eq_ok {t : Term} {n : Nat} {r : Ty × Nat}
    (h : (Lower.typeOf t).run n = .ok r) : t.type = .ok r.1 := by
  unfold Lower.typeOf at h
  split at h
  · next u ht =>
    rw [ht, run_pure_eq_ok h]
  · cases h

theorem run_of_lowerBind {c : Context} {b : Typed.Bind} {out : List Bind}
    (h : lowerBind c b = .ok out) : ∃ n, (Lower.bind c b).run 0 = .ok (out, n) := by
  unfold lowerBind at h
  cases hr : (Lower.bind c b).run 0 with
  | error err => simp [hr, Bind.bind, Except.bind] at h
  | ok r =>
    obtain rfl : r.1 = out := by simpa [hr, Bind.bind, Except.bind, pure, Except.pure] using h
    exact ⟨r.2, rfl⟩

theorem length_of_holes {ds : List Typed.Hole} {args : List Term}
    (h : Lower.holes ds = .ok args) : args.length = ds.length := by
  induction ds generalizing args with
  | nil =>
    unfold Lower.holes at h
    cases h
    rfl
  | cons d ds ih =>
    unfold Lower.holes at h
    cases hd : Lower.hole d with
    | error e => simp [hd, bind, Except.bind] at h
    | ok t =>
      cases hds : Lower.holes ds with
      | error e => simp [hd, hds, bind, Except.bind] at h
      | ok ts =>
        obtain rfl : t :: ts = args := by
          simpa [hd, hds, bind, Except.bind, pure, Except.pure] using h
        rw [List.length_cons, List.length_cons, ih hds]

variable {c : Context}

theorem type_of_run_inst {h : Typed.Head} {ts : List Ty} {ds : List Typed.Hole} {l : Span}
    (hts : ts.length = h.scheme.tvs.length) (hds : ds.length = h.scheme.preds.length) {n : Nat}
    {r : Term × Nat} (hr : (Lower.expr c (.inst h ts ds l)).run n = .ok r) :
    r.1.type = .ok (h.scheme.body.substVars (assign h.scheme.tvs ts)) := by
  unfold Lower.expr at hr
  obtain ⟨args, hargs, hr⟩ := run_bind_eq_ok.1 hr
  have hholes := run_lift_eq_ok hargs
  rw [run_pure_eq_ok hr]
  exact type_inst hts ((length_of_holes hholes).trans hds)

-- Patterns and equations

theorem type_matchPat {success failure : Term} {t : Ty} (hs : success.type = .ok t) {b : Binder} :
    ∀ {p : Typed.Pat} {n : Nat} {r : Term × Nat},
      (Lower.matchPat c b success failure p).run n = .ok r → r.1.type = .ok t
  | .wild _ _, n, r, h => by
    unfold Lower.matchPat at h
    rw [run_pure_eq_ok h, hs]
  | .par p _, n, r, h => by
    unfold Lower.matchPat at h
    exact type_matchPat hs h
  | .var i _, n, r, h => by
    unfold Lower.matchPat at h
    rw [run_pure_eq_ok h, Term.type, hs]
  | .lit v _, n, r, h => by
    unfold Lower.matchPat at h
    obtain ⟨b', -, h⟩ := run_bind_eq_ok.1 h
    obtain ⟨u, hu, h⟩ := run_bind_eq_ok.1 h
    rw [run_pure_eq_ok h, Term.type, ← run_typeOf_eq_ok hu, hs]
  | .con k ts ps u _, n, r, h => by
    unfold Lower.matchPat at h
    obtain ⟨d, -, h⟩ := run_bind_eq_ok.1 h
    obtain ⟨fields, -, h⟩ := run_bind_eq_ok.1 h
    obtain ⟨inner, -, h⟩ := run_bind_eq_ok.1 h
    obtain ⟨b', -, h⟩ := run_bind_eq_ok.1 h
    obtain ⟨u, hu, h⟩ := run_bind_eq_ok.1 h
    rw [run_pure_eq_ok h, Term.type, ← run_typeOf_eq_ok hu, hs]

theorem type_matchPats {success failure : Term} {t : Ty} (hs : success.type = .ok t)
    {bs : List Binder} {ps : List Typed.Pat} {n : Nat} {r : Term × Nat}
    (h : (Lower.matchPats c success failure bs ps).run n = .ok r) : r.1.type = .ok t := by
  induction bs generalizing ps n r with
  | nil =>
    cases ps <;>
    · unfold Lower.matchPats at h
      rw [run_pure_eq_ok h, hs]
  | cons b bs ih =>
    cases ps with
    | nil =>
      unfold Lower.matchPats at h
      rw [run_pure_eq_ok h, hs]
    | cons p ps =>
      unfold Lower.matchPats at h
      obtain ⟨inner, hinner, h⟩ := run_bind_eq_ok.1 h
      exact type_matchPat (ih hinner) h

theorem hasType_rows {R : Ty → Ty → Prop} {bs : List Binder} {failure : Term} {t : Ty}
    {ms : List Typed.Match} (hf : ms = [] → failure.HasType R t)
    (hms : ∀ m ∈ ms, LowersAt R c m.rhs t) {n : Nat} {r : Term × Nat}
    (h : (Lower.rows c bs failure ms).run n = .ok r) : r.1.HasType R t := by
  cases ms with
  | nil =>
    unfold Lower.rows at h
    rw [run_pure_eq_ok h]
    exact hf rfl
  | cons m ms =>
    obtain ⟨ps, e, l⟩ := m
    unfold Lower.rows at h
    obtain ⟨next, -, h⟩ := run_bind_eq_ok.1 h
    obtain ⟨success, hsuccess, h⟩ := run_bind_eq_ok.1 h
    obtain ⟨u, hu, htu⟩ := hms _ (List.mem_cons_self ..) _ _ hsuccess
    exact ⟨u, type_matchPats hu h, htu⟩

theorem type_patError (hc : c.KnowsBuiltins) (t : Ty) : (Lower.patError c t).type = .ok t := by
  have hscheme : Lower.patErrorScheme c = ⟨["a"], [], .var "a"⟩ := by
    unfold Lower.patErrorScheme
    split
    · next i h => exact hc.patError i h
    · rfl
  unfold Lower.patError
  rw [hscheme]
  refine type_tyApp rfl ?_
  exact instantiate_forAll rfl _

theorem type_conVar {k : Name} {ts : List Ty} {n : Nat} {r : Term × Nat}
    (h : (Lower.conVar c k ts).run n = .ok r) :
    ∃ d, c.entity? k = some (.dataCon d) ∧ ∀ t, d.scheme.toTy.instantiate ts = .ok t →
      r.1.type = .ok t := by
  unfold Lower.conVar at h
  obtain ⟨d, hd, h⟩ := run_bind_eq_ok.1 h
  unfold Lower.dataCon at hd
  split at hd
  · next d' hd' =>
    refine ⟨d', hd', fun t ht => ?_⟩
    rw [run_pure_eq_ok h, run_pure_eq_ok hd]
    exact type_tyApp rfl ht
  · cases hd

-- Expressions

theorem type_head {h : Typed.Head} (hm : h.scheme.isMono = true) :
    (Lower.head h).type = .ok h.scheme.body := by
  obtain ⟨htvs, hpreds⟩ : h.scheme.tvs = [] ∧ h.scheme.preds = [] := by
    simpa [Scheme.isMono] using hm
  have hty : h.scheme.toTy = h.scheme.body := by
    simp [Scheme.toTy, Ty.quantify, Ty.fns, htvs, hpreds]
  rw [← hty]
  cases h with
  | var | con => rfl

theorem run_freshBinders {ts : List Ty} {n : Nat} {r : List Binder × Nat}
    (h : (Lower.freshBinders c ts).run n = .ok r) : r.1.map (·.ty) = ts := by
  induction ts generalizing n r with
  | nil =>
    unfold Lower.freshBinders at h
    rw [run_pure_eq_ok h]
    rfl
  | cons t ts ih =>
    unfold Lower.freshBinders at h
    obtain ⟨b, hb, h⟩ := run_bind_eq_ok.1 h
    obtain ⟨bs, hbs, h⟩ := run_bind_eq_ok.1 h
    have hty : b.1.ty = t := by
      cases hb
      rfl
    rw [run_pure_eq_ok h, List.map_cons, ih hbs, hty]

theorem type_of_run_letBinds {body : Term} {bs : List Typed.Bind} {n : Nat} {r : Term × Nat}
    (hr : (Lower.letBinds c body bs).run n = .ok r) : r.1.type = body.type := by
  induction bs generalizing n r with
  | nil =>
    unfold Lower.letBinds at hr
    rw [run_pure_eq_ok hr]
  | cons b bs ih =>
    unfold Lower.letBinds at hr
    obtain ⟨inner, hinner, hr⟩ := run_bind_eq_ok.1 hr
    obtain ⟨b', -, hr⟩ := run_bind_eq_ok.1 hr
    rw [run_pure_eq_ok hr, type_lets, ih hinner]

section

variable {R : Ty → Ty → Prop} (hR : Functional R)
include hR

theorem lowersAt_head {h : Typed.Head} (hm : h.scheme.isMono = true) (l : Span) :
    LowersAt R c (.head h l) h.scheme.body := by
  intro n r hr
  unfold Lower.expr at hr
  rw [run_pure_eq_ok hr]
  exact ⟨_, type_head hm, hR.refl _⟩

theorem lowersAt_lit (v : Literal) (l : Span) : LowersAt R c (.lit v l) v.ty := by
  intro n r hr
  unfold Lower.expr at hr
  rw [run_pure_eq_ok hr]
  exact ⟨_, rfl, hR.refl _⟩

theorem lowersAt_app {f x : Typed.Expr} {l : Span} {p t : Ty} (hf : LowersAt R c f (.fn p t)) :
    LowersAt R c (.app f x l) t := by
  intro n r hr
  unfold Lower.expr at hr
  obtain ⟨f', hf', hr⟩ := run_bind_eq_ok.1 hr
  obtain ⟨x', -, hr⟩ := run_bind_eq_ok.1 hr
  rw [run_pure_eq_ok hr]
  exact (hf _ _ hf').app hR

theorem lowersAt_opApp {x op y : Typed.Expr} {l : Span} {p q t : Ty}
    (hop : LowersAt R c op (.fn p (.fn q t))) : LowersAt R c (.opApp x op y l) t := by
  intro n r hr
  unfold Lower.expr at hr
  obtain ⟨op', hop', hr⟩ := run_bind_eq_ok.1 hr
  obtain ⟨x', -, hr⟩ := run_bind_eq_ok.1 hr
  obtain ⟨y', -, hr⟩ := run_bind_eq_ok.1 hr
  rw [run_pure_eq_ok hr]
  exact ((hop _ _ hop').app hR).app hR

theorem lowersAt_lambda {ms : List Typed.Match} {ts : List Ty} {t : Ty} {l : Span} (hne : ms ≠ [])
    (hms : ∀ m ∈ ms, LowersAt R c m.rhs t) :
    LowersAt R c (.lambda (.mk ms ts t) l) (.fns ts t) := by
  intro n r hr
  unfold Lower.expr Lower.lambda at hr
  obtain ⟨bs, hbs, hr⟩ := run_bind_eq_ok.1 hr
  obtain ⟨body, hbody, hr⟩ := run_bind_eq_ok.1 hr
  obtain ⟨u, hu, htu⟩ := hasType_rows (fun h => absurd h hne) hms hbody
  rw [run_pure_eq_ok hr]
  refine ⟨_, type_lams hu, ?_⟩
  rw [run_freshBinders hbs]
  exact hR.fns ts htu

theorem lowersAt_list
    (hcons : ∀ d, c.entity? Builtin.consCon = some (.dataCon d) →
      d.scheme = ⟨["a"], [], .fns [.var "a", .list (.var "a")] (.list (.var "a"))⟩)
    (hnil : ∀ d, c.entity? Builtin.nilCon = some (.dataCon d) →
      d.scheme = ⟨["a"], [], .list (.var "a")⟩) {es : List Typed.Expr} {t : Ty} {l : Span} :
    LowersAt R c (.list es t l) (.list t) := by
  have hall {nil : Term} (hnil : nil.type = .ok (.list t)) {es : List (LowerM Term)} {n : Nat}
      {r : Term × Nat} (hr : (Lower.consAll c t nil es).run n = .ok r) :
      r.1.type = .ok (.list t) := by
    induction es generalizing n r with
    | nil =>
      unfold Lower.consAll at hr
      rw [run_pure_eq_ok hr, hnil]
    | cons e es ih =>
      unfold Lower.consAll at hr
      obtain ⟨tail, -, hr⟩ := run_bind_eq_ok.1 hr
      obtain ⟨cons, hcon, hr⟩ := run_bind_eq_ok.1 hr
      obtain ⟨e', -, hr⟩ := run_bind_eq_ok.1 hr
      obtain ⟨d, hd, hty⟩ := type_conVar hcon
      have hconsTy : cons.1.type = .ok (.fns [t, .list t] (.list t)) := by
        refine hty _ ?_
        rw [hcons d hd]
        exact instantiate_forAll rfl _
      rw [run_pure_eq_ok hr]
      exact type_app (type_app hconsTy)
  intro n r hr
  unfold Lower.expr at hr
  obtain ⟨nil, hcon, hr⟩ := run_bind_eq_ok.1 hr
  obtain ⟨d, hd, hty⟩ := type_conVar hcon
  refine ⟨_, hall (hty _ ?_) hr, hR.refl _⟩
  rw [hnil d hd]
  exact instantiate_forAll rfl _

end

variable {R : Ty → Ty → Prop}

theorem lowersAt_par {e : Typed.Expr} {l : Span} {t : Ty} (he : LowersAt R c e t) :
    LowersAt R c (.par e l) t := by
  intro n r hr
  unfold Lower.expr at hr
  exact he n r hr

theorem lowersAt_ifThenElse {e y z : Typed.Expr} {l : Span} {t : Ty} (hy : LowersAt R c y t) :
    LowersAt R c (.ifThenElse e y z l) t := by
  intro n r hr
  unfold Lower.expr at hr
  obtain ⟨y', hy', hr⟩ := run_bind_eq_ok.1 hr
  obtain ⟨z', -, hr⟩ := run_bind_eq_ok.1 hr
  obtain ⟨e', -, hr⟩ := run_bind_eq_ok.1 hr
  obtain ⟨b, -, hr⟩ := run_bind_eq_ok.1 hr
  obtain ⟨u, hu, hr⟩ := run_bind_eq_ok.1 hr
  obtain ⟨v, hv, htv⟩ := hy _ _ hy'
  rw [run_pure_eq_ok hr]
  refine ⟨v, ?_, htv⟩
  rw [Term.type, ← run_typeOf_eq_ok hu, hv]

theorem lowersAt_letIn {bs : List Typed.Bind} {e : Typed.Expr} {l : Span} {t : Ty}
    (he : LowersAt R c e t) : LowersAt R c (.letIn bs e l) t := by
  intro n r hr
  unfold Lower.expr at hr
  obtain ⟨e', he', hr⟩ := run_bind_eq_ok.1 hr
  obtain ⟨u, hu, htu⟩ := he _ _ he'
  exact ⟨u, (type_of_run_letBinds hr).trans hu, htu⟩

theorem lowersAt_caseOf {e : Typed.Expr} {ms : List Typed.Match} {ts : List Ty} {t : Ty} {l : Span}
    (hf : ms = [] → (Lower.patError c t).HasType R t)
    (hms : ∀ m ∈ ms, LowersAt R c m.rhs t) : LowersAt R c (.caseOf e (.mk ms ts t) l) t := by
  intro n r hr
  unfold Lower.expr at hr
  obtain ⟨b, -, hr⟩ := run_bind_eq_ok.1 hr
  obtain ⟨body, hbody, hr⟩ := run_bind_eq_ok.1 hr
  obtain ⟨e', -, hr⟩ := run_bind_eq_ok.1 hr
  obtain ⟨u, hu, htu⟩ := hasType_rows hf hms hbody
  rw [run_pure_eq_ok hr]
  exact ⟨u, hu, htu⟩

end Core

end TypeLens
