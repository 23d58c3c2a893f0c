import TypeLens.Proofs.Checking.Evolution
import TypeLens.Proofs.Surface.Arities
import TypeLens.Proofs.Typed.Nodes
import TypeLens.Proofs.Typed.Uses

/-!
One pass over all that is checked. It carries along any property of expressions and their types that
each form of expression hands on from its parts to the whole, once all types are what they are in
the end.
-/

namespace TypeLens

namespace Check

/-- Where a run of checking ends, with a property of expressions and their types, and with the
constructors that patterns may have. -/
structure Finish where
  subst : Subst
  inferred : List Inferred
  Holds : Typed.Expr → Ty → Prop
  Constructor : DataCon → Prop
  /-- Whether the equations of each function are known to have equally many patterns, and cases to
  have alternatives. -/
  Neat : Prop

namespace Finish

variable (x : Finish)

/-- The property goes from the parts of an expression to the whole, whatever its form. -/
structure Closed : Prop where
  cast {e : Typed.Expr} {t u : Ty} : x.Holds e t → x.subst.apply t = x.subst.apply u → x.Holds e u
  head {h : Typed.Head} (l : Span) : h.scheme.isMono = true → x.Holds (.head h l) h.scheme.body
  inst {h : Typed.Head} {ts : List Ty} {ds : List Typed.Hole} {l : Span} {t : Ty} :
    (.inst h ts ds l, t) ∈ x.inferred → WellShaped (.inst h ts ds l, t) →
      x.Holds (.inst h ts ds l) t
  lit (v : Literal) (l : Span) : x.Holds (.lit v l) v.ty
  app {f a : Typed.Expr} {p t : Ty} (l : Span) : x.Holds f (.fn p t) → x.Holds (.app f a l) t
  opApp {a op b : Typed.Expr} {p q t : Ty} (l : Span) :
    x.Holds op (.fn p (.fn q t)) → x.Holds (.opApp a op b l) t
  lambda {g : Typed.MatchGroup} (l : Span) :
    g.rows ≠ [] → (∀ m ∈ g.rows, x.Holds m.rhs g.resTy) → x.Holds (.lambda g l) g.ty
  letIn {bs : List Typed.Bind} {e : Typed.Expr} {t : Ty} (l : Span) :
    x.Holds e t → x.Holds (.letIn bs e l) t
  ifThenElse {c y n : Typed.Expr} {t : Ty} (l : Span) :
    x.Holds y t → x.Holds (.ifThenElse c y n l) t
  caseOf {s : Typed.Expr} {g : Typed.MatchGroup} (l : Span) :
    (∀ m ∈ g.rows, x.Holds m.rhs g.resTy) → x.Holds (.caseOf s g l) g.resTy
  list (es : List Typed.Expr) (t : Ty) (l : Span) : x.Holds (.list es t l) (.list t)
  par {e : Typed.Expr} {t : Ty} (l : Span) : x.Holds e t → x.Holds (.par e l) t

/-- Patterns have certain types, one after the other. -/
def Matches (ps : List Typed.Pat) (ts : List Ty) : Prop :=
  ps.map (x.subst.apply ·.ty) = ts.map x.subst.apply

/-- A pattern has the types of a constructor at its type arguments. -/
structure Constructs (c : DataCon) (ts : List Ty) (ps : List Typed.Pat) (t : Ty) : Prop where
  known : x.Constructor c
  typeArgs : ts.length = c.scheme.tvs.length
  result : t = (c.scheme.body.splitFns c.argTypes.length).2.substVars (assign c.scheme.tvs ts)
  fields : x.Matches ps (c.argTypes.map (·.substVars (assign c.scheme.tvs ts)))

/-- The type of an expression was found, or it is the name in an occurrence with type arguments. A
pattern has the types of its constructor, which is known, and the patterns of an equation those of
its column; there is an equation in each group. A binding has the variables of its pattern, and its
group has those of the bindings. -/
def Accounts : Typed.Node → Prop
  | .expr e => (∃ t, (e, t) ∈ x.inferred) ∨ ∃ h, e = .head h .unknown
  | .pat (.con k ts ps t _) => ∃ c, c.name = k ∧ x.Constructs c ts ps t
  | .group g => x.Neat → g.rows ≠ [] ∧ ∀ m ∈ g.rows, x.Matches m.pats g.argTys
  | .bind (.pat p _ is _) => p.idents = is
  | .bind (.abs _ _ es bs _) => ∀ b ∈ bs, ∀ i ∈ b.idents, i ∈ es.map (·.mono)
  | _ => True

/-- Patterns may have the constructors of the module. -/
def Knows (g : Globals) : Prop := ∀ n c, g.entity? n = some (.dataCon c) → x.Constructor c

structure Infers (e : Typed.Expr) (t : Ty) : Prop where
  nodes : ∀ n ∈ e.nodes, x.Accounts n
  holds : x.Holds e t

structure RowInfers (m : Typed.Match) (ts : List Ty) (t : Ty) : Prop where
  pats : ∀ n ∈ Typed.Pat.nodesOf m.pats, x.Accounts n
  columns : x.Neat → x.Matches m.pats ts
  rhs : x.Infers m.rhs t

/-- What is known in a state is also known in the end, and there are no errors. -/
structure Before (s : State) : Prop where
  grows : s.subst.Grows x.subst
  reports : ∀ r ∈ s.reports, r.isError = false
  inferred : ∀ e ∈ s.inferred, e ∈ x.inferred

/-- If `H` holds and all ends well, what an action returns satisfies `Q`, and all that it notes has
the property. -/
def Yields {α : Type} (H : Prop) (act : CheckM α) (Q : α → Prop) : Prop :=
  Evolves WellShaped act ∧ ∀ s, x.Before (act.run s).2 → H →
    Runs (fun _ => True) (fun e => x.Holds e.1 e.2) s (act.run s).2 ∧ Q (act.run s).1

def Inferring (act : CheckM Inferred) : Prop :=
  ∀ H, x.Yields H act fun r => x.Infers r.1 r.2

def RowInferring (r : Row) : Prop := ∀ env, x.Knows env.globals → x.Inferring (r.rhs env)

/-- The patterns and right-hand sides of all equations have the types that they have in common. -/
structure Covers (g : Typed.MatchGroup) : Prop where
  nonempty : x.Neat → g.rows ≠ []
  rows : ∀ m ∈ g.rows, x.RowInfers m g.argTys g.resTy

/-- Nothing in a binding is left out. -/
def BindNoted (b : Typed.Bind) : Prop := ∀ n ∈ b.nodes, x.Accounts n

/-- The equations of a function, as many patterns as the first one has. -/
structure RowsInferring (first : Row) (rest : List Row) : Prop where
  rows : ∀ r ∈ first :: rest, x.RowInferring r
  even : x.Neat → ∀ r ∈ rest, r.pats.length = first.pats.length

def FunInferring (j : FunJob) : Prop := x.RowsInferring j.first j.rest

def JobInferring : Job → Prop
  | .fn j => x.FunInferring j
  | .pat _ rhs _ => ∀ env, x.Knows env.globals → x.Inferring (rhs env)

variable {x}

theorem Before.of_later {s s' : State} (h : x.Before s') (hl : Later s s') : x.Before s where
  grows t := by rw [← h.grows (s.subst.apply t), hl.grows, h.grows]
  reports r hr := h.reports r (hl.reports.subset hr)
  inferred e he := h.inferred e (hl.inferred.subset he)

namespace Yields

variable {α β : Type} {H H' : Prop} {act : CheckM α} {P Q : α → Prop} {R : β → Prop}

theorem pure {a : α} (h : H → Q a) : x.Yields H (Pure.pure a) Q :=
  ⟨.pure a, fun _ _ hH => ⟨.refl, h hH⟩⟩

theorem bind_of {S : α → Prop} {f : α → CheckM β} (h : x.Yields H act P) (hS : Returns act S)
    (hf : ∀ a, S a → x.Yields (H ∧ P a) (f a) R) : x.Yields H (act >>= f) R := by
  refine ⟨.bind_of h.1 hS fun a ha => (hf a ha).1, fun s hb hH => ?_⟩
  -- The end of the second action also comes after the first one.
  have hlater := ((hf (act.run s).1 (hS s)).1 (act.run s).2).later
  obtain ⟨hruns, hP⟩ := h.2 s (hb.of_later hlater) hH
  obtain ⟨hruns', hR⟩ := (hf (act.run s).1 (hS s)).2 (act.run s).2 hb ⟨hH, hP⟩
  exact ⟨hruns.trans hruns', hR⟩

theorem bind {f : α → CheckM β} (h : x.Yields H act P)
    (hf : ∀ a, x.Yields (H ∧ P a) (f a) R) : x.Yields H (act >>= f) R :=
  bind_of (S := fun _ => True) h (fun _ => trivial) fun a _ => hf a

theorem skip_of {f : α → CheckM β} (h : Evolves (fun _ => False) act)
    (hP : ∀ s, P (act.run s).1) (hf : ∀ a, P a → x.Yields H (f a) R) :
    x.Yields H (act >>= f) R := by
  refine ⟨.bind_of (.of_silent h) hP fun a ha => (hf a ha).1, fun s hb hH => ?_⟩
  obtain ⟨hruns, hR⟩ := (hf (act.run s).1 (hP s)).2 (act.run s).2 hb hH
  exact ⟨(Evolves.of_silent h s).trans hruns, hR⟩

theorem skip {f : α → CheckM β} (h : Evolves (fun _ => False) act)
    (hf : ∀ a, x.Yields H (f a) R) : x.Yields H (act >>= f) R :=
  skip_of (P := fun _ => True) h (fun _ => trivial) fun a _ => hf a

theorem mono (h : x.Yields H act P) (hH : H' → H) (hQ : ∀ a, P a → Q a) : x.Yields H' act Q :=
  ⟨h.1, fun s hb hH' => (h.2 s hb (hH hH')).imp_right (hQ _)⟩

/-- Something that is plain from where an action ends. -/
theorem of_before (h : x.Yields H act P) (hQ : ∀ s, x.Before (act.run s).2 → Q (act.run s).1) :
    x.Yields H act Q :=
  ⟨h.1, fun s hb hH => ⟨(h.2 s hb hH).1, hQ s hb⟩⟩

theorem mapM {f : α → CheckM β} {as : List α} (h : ∀ a ∈ as, x.Yields H (f a) R) :
    x.Yields H (as.mapM f) fun bs => ∀ b ∈ bs, R b := by
  induction as generalizing H with
  | nil => exact pure fun _ => by simp
  | cons a as ih =>
    rw [List.mapM_cons]
    refine bind (h a (List.mem_cons_self ..)) fun b => ?_
    have hrest : x.Yields (H ∧ R b) (as.mapM f) fun bs => ∀ b ∈ bs, R b :=
      ih fun a' ha' => (h a' (List.mem_cons_of_mem _ ha')).mono And.left fun _ => id
    exact bind hrest fun bs => pure fun hb => List.forall_mem_cons.2 ⟨hb.1.2, hb.2⟩

end Yields

variable {H : Prop}

namespace Yields

variable {α β : Type} {b : Bound} {P : α × Bound → Prop} {R : β × Bound → Prop}

/-- The same for actions that also know what patterns have bound. -/
theorem bindPat {act : PatM α} {f : α → PatM β} (h : x.Yields H (act.run b) P)
    (hf : ∀ r, x.Yields (H ∧ P r) ((f r.1).run r.2) R) : x.Yields H ((act >>= f).run b) R := by
  rw [StateT.run_bind]
  exact h.bind hf

theorem purePat {a : α} (h : H → P (a, b)) : x.Yields H ((Pure.pure a : PatM α).run b) P := .pure h

theorem lift {act : CheckM α} {P : α → Prop} (h : x.Yields H act P) (b : Bound) :
    x.Yields H ((liftM act : PatM α).run b) fun r => P r.1 ∧ r.2 = b := by
  have hlift : x.Yields H (act >>= fun a => Pure.pure (a, b)) fun r => P r.1 ∧ r.2 = b :=
    h.bind fun _ => .pure fun ha => ⟨ha.2, rfl⟩
  exact hlift

end Yields

/-- Two types that have to be equal are equal in the end. -/
theorem yields_unify (t u : Ty) (loc : Span) :
    x.Yields H (unify t u loc) fun _ => x.subst.apply t = x.subst.apply u := by
  refine ⟨evolves_unify t u loc, fun s hb _ => ⟨evolves_unify t u loc s, ?_⟩⟩
  cases h : (s.subst.unify t u).2 with
  | none =>
    rw [unify_run_of_none loc h] at hb
    rw [← hb.grows t, ← hb.grows u]
    exact congrArg x.subst.apply (Subst.unify_equates h)
  | some e =>
    obtain ⟨r, σ, hr, -, hs⟩ := unify_run_of_some loc h
    rw [hs] at hb
    have hno := hb.reports r (List.mem_cons_self ..)
    rw [hr] at hno
    cases hno

theorem yields_zonk (t : Ty) :
    x.Yields H (zonk t) fun u => x.subst.apply u = x.subst.apply t := by
  refine ⟨(quiet_zonk t).evolves, fun s hb _ => ⟨(quiet_zonk t).evolves s, ?_⟩⟩
  have hlater := (Step.zonk (P := fun _ => True) (N := WellShaped) s t).later
  rw [← (hb.of_later hlater).grows t]
  exact congrArg x.subst.apply (s.subst.zonk_fst t)

/-- If all ends well, no error is reported. -/
theorem yields_error {p : Problem} (hp : p.severity = .error) (loc : Span) :
    x.Yields H (report p loc) fun _ => False := by
  refine ⟨(quiet_report p loc).evolves, fun s hb _ => ?_⟩
  have hno := hb.reports ⟨p, loc⟩ (List.mem_cons_self ..)
  rw [Report.isError, hp] at hno
  cases hno

theorem yields_reportIf {p : Problem} (hp : p.severity = .error) (c : Bool) (loc : Span) :
    x.Yields H (reportIf c p loc) fun _ => c = false := by
  unfold reportIf
  split
  · exact (yields_error hp loc).mono id fun _ h => h.elim
  · next hc => exact .pure fun _ => Bool.eq_false_iff.2 hc

/-- The last step of inferring an expression; `ns` are the nodes in its parts. -/
theorem yields_note {e : Typed.Expr} {t : Ty} (hw : WellShaped (e, t)) {ns : List Typed.Node}
    (hn : e.nodes = .expr e :: ns) (hns : H → ∀ n ∈ ns, x.Accounts n)
    (hr : H → (e, t) ∈ x.inferred → x.Holds e t) :
    x.Yields H (note (e, t)) fun r => x.Infers r.1 r.2 := by
  refine ⟨evolves_note hw, fun s hb hH => ?_⟩
  have hmem : (e, t) ∈ x.inferred := hb.inferred _ (List.mem_cons_self ..)
  have hholds := hr hH hmem
  refine ⟨.single (.note s hholds), fun n hmemn => ?_, hholds⟩
  have hmemn : n ∈ e.nodes := hmemn
  rw [hn] at hmemn
  rcases List.mem_cons.1 hmemn with rfl | hmemn
  · exact .inl ⟨t, hmem⟩
  · exact hns hH n hmemn

theorem yields_collecting {α : Type} {act : CheckM α} {Q : α → Prop} (h : x.Yields H act Q) :
    x.Yields H (collecting act) fun r => Q r.1 := by
  refine .skip .get fun s => .skip (quiet_wanted fun _ => []).evolves fun _ => .bind h fun a => ?_
  refine .skip .get fun s' => .skip (quiet_wanted fun _ => s.wanted).evolves fun _ => ?_
  exact .pure And.right

-- Patterns

theorem Knows.extend {env : Env} (hk : x.Knows env.globals) (ids : Locals) :
    x.Knows (env.extend ids).globals := hk

theorem Knows.constructor_of_resolveCon {g : Globals} (hk : x.Knows g) {occ : String} {c : DataCon}
    (h : resolveCon g occ = .ok c) : x.Constructor c := by
  unfold resolveCon at h
  cases hr : resolve g .value .dataConstructor occ with
  | error q =>
    rw [hr] at h
    cases h
  | ok n =>
    rw [hr] at h
    simp only [bind, Except.bind] at h
    split at h
    · next c' hc =>
      cases h
      exact hk n _ hc
    · cases h

/-- If a group has identifiers for some binders, these are the ones. -/
def FromGroup (group : Bound) (ys : List (String × Span)) (is : List Typed.Ident) : Prop :=
  (∀ y ∈ ys, ∃ i, group.get? y.1 = some i) → ∀ i ∈ is, i ∈ group.values

variable (x) in
/-- A pattern with the binders `ys` that has been checked against a type, after the variables in `b`
were bound. -/
structure PatChecked (group : Bound) (ys : List (String × Span)) (t : Ty) (b : Bound)
    (r : Typed.Pat × Bound) : Prop where
  nodes : ∀ n ∈ r.1.nodes, x.Accounts n
  ty : x.subst.apply r.1.ty = x.subst.apply t
  bound : r.2.values = b.values ++ r.1.idents
  group : FromGroup group ys r.1.idents

variable (x) in
/-- As many patterns as there are types, or fewer or more. -/
structure PatsChecked (group : Bound) (ps : List Surface.Pat) (ts : List Ty) (b : Bound)
    (r : List Typed.Pat × Bound) : Prop where
  nodes : ∀ n ∈ Typed.Pat.nodesOf r.1, x.Accounts n
  columns : ps.length = ts.length → x.Matches r.1 ts
  bound : r.2.values = b.values ++ Typed.Pat.identsOf r.1
  group : FromGroup group (Surface.Pat.bindersList ps) (Typed.Pat.identsOf r.1)

/-- A pattern that binds nothing. -/
theorem PatChecked.of_idents {group : Bound} {p : Typed.Pat} {t : Ty} (b : Bound)
    (hn : p.nodes = [.pat p]) (hp : x.Accounts (.pat p))
    (ht : x.subst.apply p.ty = x.subst.apply t) (hi : p.idents = []) :
    x.PatChecked group [] t b (p, b) where
  nodes := hn ▸ List.forall_mem_singleton.2 hp
  ty := ht
  bound := by rw [hi, List.append_nil]
  group _ i h := absurd (hi ▸ h) List.not_mem_nil

theorem yields_patIdent (env : Env) (group : Bound) (occ : String) (t : Ty) (loc l : Span) :
    x.Yields H (patIdent env group occ t loc) fun i =>
      x.subst.apply i.scheme.body = x.subst.apply t ∧ FromGroup group [(occ, l)] [i] := by
  unfold patIdent
  split
  · next i hi =>
    refine .bind (yields_unify _ _ _) fun _ => .pure fun h => ⟨h.2, fun _ => ?_⟩
    exact List.forall_mem_singleton.2 (List.mem_map_of_mem (Table.mem_of_get? hi))
  · next hnone =>
    refine ⟨(quiet_newLocal env occ t).evolves, fun s _ _ => ?_⟩
    refine ⟨(quiet_newLocal env occ t).evolves s, rfl, fun h => ?_⟩
    obtain ⟨i, hi⟩ := h _ (List.mem_singleton_self _)
    rw [hnone] at hi
    cases hi

theorem yields_freshFor {α : Type} (xs : List α) :
    x.Yields H (freshFor xs) fun ts => ts.length = xs.length :=
  ⟨evolves_freshFor xs, fun s _ _ => ⟨evolves_freshFor xs s, length_freshFor xs s⟩⟩

mutual

theorem yields_checkPat {env : Env} (hk : x.Knows env.globals) (group : Bound) :
    ∀ (p : Surface.Pat) (t : Ty) (b : Bound) {H : Prop},
    x.Yields H ((checkPat env group p t).run b) (x.PatChecked group p.binders t b)
  | .var n l, t, b, H => by
    unfold checkPat
    refine .bindPat (P := fun r => r = (b, b)) (.pure fun _ => rfl) fun r => ?_
    refine .bindPat (.lift (yields_reportIf (p := .definedTwice n) rfl _ l) r.2) fun r₁ => ?_
    refine .bindPat (.lift (yields_patIdent env group n t l l) r₁.2) fun i => ?_
    refine .bindPat (P := fun r => r.2 = i.2.put n i.1) (.pure fun _ => rfl) fun r => .purePat ?_
    rintro ⟨⟨⟨⟨-, rfl⟩, hnew, h₁⟩, ⟨hi, hgroup⟩, h₂⟩, hr⟩
    rw [h₁] at h₂
    have hnone : b.get? n = none := by simpa [Table.contains] using hnew
    refine ⟨List.forall_mem_singleton.2 trivial, hi, ?_, hgroup⟩
    rw [hr, h₂, Table.put_of_none hnone, Table.values, List.map_append]
    rfl
  | .wild l, t, b, H => by
    unfold checkPat
    exact .purePat fun _ => .of_idents b rfl trivial rfl rfl
  | .lit v l, t, b, H => by
    unfold checkPat
    refine .bindPat (.lift (yields_unify _ _ _) b) fun r => .purePat ?_
    rintro ⟨-, heq, hr⟩
    rw [hr]
    exact .of_idents b rfl trivial heq.symm rfl
  | .par p l, t, b, H => by
    unfold checkPat
    refine .bindPat (yields_checkPat hk group p t b) fun r => .purePat fun ⟨_, hr⟩ => ?_
    refine ⟨?_, hr.ty, hr.bound, hr.group⟩
    rw [Typed.Pat.nodes]
    exact List.forall_mem_cons.2 ⟨trivial, hr.nodes⟩
  | .con n ps l, t, b, H => by
    unfold checkPat
    split
    · next p hp =>
      refine .bindPat (.lift (yields_error (isError_of_resolveCon hp) l) b) fun r => ?_
      refine .bindPat (P := fun _ => True) ?_ fun _ => .purePat fun h => h.1.2.1.elim
      exact ⟨evolves_rule.freshPats env group ps r.2, fun s _ _ =>
        ⟨evolves_rule.freshPats env group ps r.2 s, trivial⟩⟩
    next c hc =>
    split
    · next harity =>
      refine .bindPat (.lift (yields_freshFor _) b) fun ts => ?_
      refine .bindPat (.lift (yields_unify _ _ _) ts.2) fun r => ?_
      refine .bindPat (yields_checkPats hk group ps _ r.2) fun r' => .purePat ?_
      rintro ⟨⟨⟨-, hts, h₁⟩, heq, h₂⟩, hr'⟩
      rw [h₁] at h₂
      rw [h₂] at hr'
      refine ⟨?_, heq.symm, hr'.bound, hr'.group⟩
      rw [Typed.Pat.nodes]
      have hknown := hk.constructor_of_resolveCon hc
      refine List.forall_mem_cons.2 ⟨⟨c, rfl, hknown, hts, ?_, ?_⟩, hr'.nodes⟩
      · rw [harity]
      · exact hr'.columns (by rw [List.length_map, harity])
    · exact .bindPat (.lift (yields_error rfl l) b) fun r => .purePat fun h => h.2.1.elim

theorem yields_checkPats {env : Env} (hk : x.Knows env.globals) (group : Bound) :
    ∀ (ps : List Surface.Pat) (ts : List Ty) (b : Bound) {H : Prop},
    x.Yields H ((checkPats env group ps ts).run b) (x.PatsChecked group ps ts b)
  | p :: ps, t :: ts, b, H => by
    unfold checkPats
    refine .bindPat (yields_checkPat hk group p t b) fun r => ?_
    refine .bindPat (yields_checkPats hk group ps ts r.2) fun r' => .purePat ?_
    rintro ⟨⟨-, hr⟩, hr'⟩
    refine ⟨?_, fun hn => ?_, ?_, fun hys => ?_⟩
    · rw [Typed.Pat.nodesOf]
      exact List.forall_mem_append.2 ⟨hr.nodes, hr'.nodes⟩
    · exact List.cons_eq_cons.2 ⟨hr.ty, hr'.columns (Nat.succ.inj hn)⟩
    · rw [hr'.bound, hr.bound, List.append_assoc]
      rfl
    · obtain ⟨hp, hps⟩ := List.forall_mem_append.1 hys
      exact List.forall_mem_append.2 ⟨hr.group hp, hr'.group hps⟩
  | [], ts, b, H => by
    unfold checkPats
    refine .purePat fun _ => ⟨List.forall_mem_nil _, fun hn => ?_, (List.append_nil _).symm, ?_⟩
    · rw [List.eq_nil_of_length_eq_zero hn.symm]
      rfl
    · exact fun _ => List.forall_mem_nil _
  | _ :: _, [], b, H => by
    unfold checkPats
    refine .purePat fun _ => ⟨List.forall_mem_nil _, fun _ => rfl, (List.append_nil _).symm, ?_⟩
    exact fun _ => List.forall_mem_nil _

end

section

variable (hx : x.Closed)
include hx

-- Names

theorem inferring_occurrence (h : Typed.Head) (occ : String) (loc : Span) :
    x.Inferring (occurrence h occ loc) := by
  intro H
  unfold occurrence
  dsimp only
  split
  · next hm =>
    have hw : WellShaped (.head h loc, h.scheme.body) := trivial
    refine .bind (yields_note hw rfl (fun _ => ?_) fun _ _ => hx.head loc hm) fun r => ?_
    · exact fun y hy => absurd hy List.not_mem_nil
    · exact .pure And.right
  · refine .skip_of (P := (·.length = h.scheme.tvs.length)) (evolves_freshFor _)
      (length_freshFor h.scheme.tvs) fun ts hts => ?_
    let preds := h.scheme.preds.map (·.substVars (assign h.scheme.tvs ts))
    refine .skip_of (P := (·.length = preds.length)) (quiet_wantedFor _ _ _).evolves
      (length_wantedFor loc occ preds) fun goals hgoals => ?_
    refine .skip (quiet_wanted (· ++ goals)).evolves fun _ => ?_
    have hw : WellShaped (.inst h ts (goals.map fun g => .unsolved g.hole g.pred) loc,
        h.scheme.body.substVars (assign h.scheme.tvs ts)) := by
      refine ⟨hts, ?_, rfl⟩
      rw [List.length_map, hgoals, List.length_map]
    refine yields_note hw rfl (fun _ y hy => ?_) fun _ hmem => hx.inst hmem hw
    obtain rfl := List.mem_singleton.1 hy
    exact Or.inr ⟨h, rfl⟩

theorem inferring_unknownName (env : Env) (occ : String) (loc : Span) :
    x.Inferring (unknownName env occ loc) := by
  intro H
  refine .skip evolves_freshUvar fun t => ?_
  refine .skip_of (P := (·.scheme = .mono t)) (quiet_newLocal env occ t).evolves (fun _ => rfl)
    fun i hi => ?_
  have hw : WellShaped (.head (.var i) loc, t) := trivial
  refine yields_note hw rfl (fun _ y hy => absurd hy List.not_mem_nil) fun _ _ => ?_
  have hholds := hx.head (h := .var i) loc (by rw [Typed.Head.scheme, hi]; rfl)
  rwa [Typed.Head.scheme, hi] at hholds

theorem inferring_inferVar (env : Env) (occ : String) (loc : Span) :
    x.Inferring (inferVar env occ loc) := by
  intro H
  unfold inferVar
  split
  · exact inferring_occurrence hx _ _ _ H
  split
  · exact .skip (quiet_report _ _).evolves fun _ => inferring_unknownName hx _ _ _ H
  split
  · exact inferring_occurrence hx _ _ _ H
  · exact inferring_occurrence hx _ _ _ H
  · exact inferring_unknownName hx _ _ _ H

theorem inferring_inferCon (env : Env) (occ : String) (loc : Span) :
    x.Inferring (inferCon env occ loc) := by
  intro H
  unfold inferCon
  split
  · exact .skip (quiet_report _ _).evolves fun _ => inferring_unknownName hx _ _ _ H
  split
  · exact inferring_occurrence hx _ _ _ H
  · exact .skip (quiet_report _ _).evolves fun _ => inferring_unknownName hx _ _ _ H

theorem inferring_inferOp (env : Env) (op : Surface.OpRef) : x.Inferring (inferOp env op) := by
  intro H
  unfold inferOp
  split
  · exact inferring_inferCon hx _ _ _ H
  · exact inferring_inferVar hx _ _ _ H

-- Operators

theorem inferring_inferTree (env : Env) {t : PartTree}
    (h : ∀ p ∈ t.operands, x.Inferring p.infer) : x.Inferring (inferTree env t) := by
  induction t with
  | leaf p => exact h p (List.mem_singleton.2 rfl)
  | node l op r ihl ihr =>
    simp only [OpTree.operands, List.mem_append] at h
    intro H
    unfold inferTree
    refine .bind (ihl (fun p hp => h p (.inl hp)) _) fun l' => ?_
    refine .bind (inferring_inferOp hx env op _) fun op' => ?_
    refine .bind (ihr (fun p hp => h p (.inr hp)) _) fun r' => .skip evolves_freshUvar fun res => ?_
    let e : Typed.Expr := .opApp l'.1 op'.1 r'.1 ((PartTree.loc l).cover (PartTree.loc r))
    have hn : e.nodes = .expr e :: (l'.1.nodes ++ op'.1.nodes ++ r'.1.nodes) := by
      simp only [e, Typed.Expr.nodes]
    have hns (hl : x.Infers l'.1 l'.2) (hop : x.Infers op'.1 op'.2) (hr : x.Infers r'.1 r'.2) :
        ∀ n ∈ l'.1.nodes ++ op'.1.nodes ++ r'.1.nodes, x.Accounts n := by
      intro n hn
      rcases List.mem_append.1 hn with hn | hn
      · exact (List.mem_append.1 hn).elim (hl.nodes n) (hop.nodes n)
      · exact hr.nodes n hn
    refine .bind (yields_zonk op'.2) fun t => ?_
    split
    · next p q t' ht =>
      refine .bind (yields_unify _ _ _) fun _ => .bind (yields_unify _ _ _) fun _ => ?_
      refine yields_note (e := e) trivial hn ?_ ?_
      · rintro ⟨⟨⟨⟨⟨⟨-, hl⟩, hop⟩, hr⟩, -⟩, -⟩, -⟩
        exact hns hl hop hr
      · rintro ⟨⟨⟨⟨⟨⟨-, -⟩, hop⟩, -⟩, hzonk⟩, -⟩, -⟩ -
        rw [Ty.eq_fn_of_splitFns ht] at hzonk
        exact hx.opApp _ (hx.cast hop.holds hzonk.symm)
    · refine .bind (yields_unify _ _ _) fun _ => yields_note (e := e) trivial hn ?_ ?_
      · rintro ⟨⟨⟨⟨⟨-, hl⟩, hop⟩, hr⟩, -⟩, -⟩
        exact hns hl hop hr
      · rintro ⟨⟨⟨⟨⟨-, -⟩, hop⟩, -⟩, -⟩, heq⟩ -
        exact hx.opApp (p := l'.2) (q := r'.2) _ (hx.cast hop.holds heq.symm)

theorem inferring_inferRow (env : Env) (first : Part) (rest : List (Surface.OpRef × Part))
    (hf : x.Inferring first.infer) (hr : ∀ p ∈ rest, x.Inferring p.2.infer) :
    x.Inferring (inferRow env first rest) := by
  intro H
  refine .skip (.forM fun c _ => (quiet_report _ _).evolves) fun _ => ?_
  refine inferring_inferTree hx env (fun p hp => ?_) H
  rw [OpTree.operands_resolve] at hp
  rcases List.mem_cons.1 hp with rfl | hp
  · exact hf
  · obtain ⟨q, hq, rfl⟩ := List.mem_map.1 hp
    exact hr q hq

-- Equations

theorem yields_checkRow {env : Env} (hk : x.Knows env.globals) (argTys : List Ty) (resTy : Ty)
    {r : Row} (h : x.RowInferring r) (hn : x.Neat → r.pats.length = argTys.length) :
    x.Yields H (checkRow env argTys resTy r) fun m => x.RowInfers m argTys resTy := by
  refine .bind (yields_checkPats hk [] r.pats argTys []) fun ps => ?_
  refine .bind (h _ (hk.extend ps.2) _) fun e => .bind (yields_unify _ _ _) fun _ => .pure ?_
  rintro ⟨⟨⟨-, hps⟩, he⟩, heq⟩
  exact ⟨hps.nodes, fun hneat => hps.columns (hn hneat), he.nodes, hx.cast he.holds heq.symm⟩

theorem yields_checkGroup {env : Env} (hk : x.Knows env.globals) (expected : Ty) {first : Row}
    {rest : List Row} (h : x.RowsInferring first rest) :
    x.Yields H (checkGroup env expected first rest) fun g => g.rows ≠ [] ∧ x.Covers g := by
  refine .skip_of (P := (·.length = first.pats.length)) (evolves_freshFor _)
    (length_freshFor first.pats) fun ts hts => .skip evolves_freshUvar fun t => ?_
  refine .skip (evolves_unify _ _ _) fun _ => ?_
  obtain ⟨hfirst, hrest⟩ := List.forall_mem_cons.1 h.rows
  rw [List.mapM_cons]
  refine .bind (.bind (yields_checkRow hx hk ts t hfirst fun _ => hts.symm) fun m => ?_)
    fun ms => .pure And.right
  have hrows {H : Prop} : x.Yields H (rest.mapM (checkRow env ts t)) fun ms =>
      ∀ m ∈ ms, x.RowInfers m ts t :=
    .mapM fun r hr => yields_checkRow hx hk ts t (hrest r hr) fun hneat =>
      (h.even hneat r hr).trans hts.symm
  refine .bind hrows fun ms => .pure ?_
  rintro ⟨⟨-, hm⟩, hms⟩
  have hne : m :: ms ≠ [] := List.cons_ne_nil _ _
  exact ⟨hne, fun _ => hne, List.forall_mem_cons.2 ⟨hm, hms⟩⟩

end

theorem Covers.nodes {g : Typed.MatchGroup} (h : x.Covers g) : ∀ n ∈ g.nodes, x.Accounts n := by
  obtain ⟨ms, ts, t⟩ := g
  intro n hn
  rw [Typed.MatchGroup.nodes, List.mem_cons, Typed.mem_nodesOf_rows] at hn
  rcases hn with rfl | ⟨m, hm, rfl | hn | hn⟩
  · exact fun hneat => ⟨h.nonempty hneat, fun m hm => (h.rows m hm).columns hneat⟩
  · trivial
  · exact (h.rows m hm).pats n hn
  · exact (h.rows m hm).rhs.nodes n hn

theorem Covers.holds {g : Typed.MatchGroup} (h : x.Covers g) :
    ∀ m ∈ g.rows, x.Holds m.rhs g.resTy := fun m hm => (h.rows m hm).rhs.holds

theorem Covers.bindNoted {g : Typed.MatchGroup} (h : x.Covers g) (i : Typed.Ident) (l : Span) :
    x.BindNoted (.fn i g l) := by
  intro n hn
  rw [Typed.Bind.nodes] at hn
  rcases List.mem_cons.1 hn with rfl | hn
  · trivial
  · exact h.nodes n hn

theorem yields_inferElems (elemTy : Ty) {ps : List Part} (h : ∀ p ∈ ps, x.Inferring p.infer) :
    x.Yields H (inferElems elemTy ps) fun es => ∀ e ∈ es, ∀ n ∈ e.nodes, x.Accounts n := by
  induction ps generalizing H with
  | nil => exact .pure fun _ => by simp
  | cons p ps ih =>
    refine .bind (h p (List.mem_cons_self ..) _) fun e => .skip (evolves_unify _ _ _) fun _ => ?_
    refine .bind (ih fun q hq => h q (List.mem_cons_of_mem _ hq)) fun es => .pure ?_
    rintro ⟨⟨-, he⟩, hes⟩
    exact List.forall_mem_cons.2 ⟨he.nodes, hes⟩

section

variable (hx : x.Closed)
include hx

-- Bindings

theorem yields_check {j : Job} (h : x.JobInferring j) {env : Env} (hk : x.Knows env.globals)
    (group : Bound) : x.Yields H (j.check env group) fun b =>
      x.BindNoted b ∧ FromGroup group j.binders b.idents := by
  cases j with
  | fn j =>
    have hfn (i : Typed.Ident) (hi : FromGroup group (Job.fn j).binders [i]) {H : Prop} :
        x.Yields H (do return .fn i (← checkGroup env i.scheme.body j.first j.rest) j.loc)
          fun b => x.BindNoted b ∧ FromGroup group (Job.fn j).binders b.idents :=
      .bind (yields_checkGroup hx hk _ h) fun g => .pure fun hg =>
        ⟨hg.2.2.bindNoted i j.loc, hi⟩
    unfold Job.check
    dsimp only
    split
    · next i hi =>
      rw [pure_bind]
      refine hfn i fun _ => List.forall_mem_singleton.2 ?_
      exact List.mem_map_of_mem (Table.mem_of_get? hi)
    · next hnone =>
      refine .skip evolves_freshUvar fun t => .skip (quiet_newLocal _ _ _).evolves fun i => hfn i ?_
      intro hys
      obtain ⟨i', hi'⟩ := hys _ (List.mem_singleton_self _)
      rw [hnone] at hi'
      cases hi'
  | pat p rhs l =>
    refine .bind (h env hk _) fun e => .bind (yields_checkPat hk group p e.2 []) fun r => .pure ?_
    rintro ⟨⟨-, he⟩, hr⟩
    have hidents : r.2.values = r.1.idents := hr.bound
    refine ⟨fun n hn => ?_, ?_⟩
    · rw [Typed.Bind.nodes, List.mem_cons, List.mem_append] at hn
      rcases hn with rfl | hn | hn
      · exact hidents.symm
      · exact hr.nodes n hn
      · exact he.nodes n hn
    · rw [Typed.Bind.idents, hidents]
      exact hr.group

theorem yields_openGroup {env : Env} (hk : x.Knows env.globals) {nameOf : String → CheckM Name}
    (hn : ∀ occ, Quiet (nameOf occ)) {js : List Job} (h : ∀ j ∈ js, x.JobInferring j) :
    x.Yields H (openGroup env nameOf js) fun g =>
      ∀ b ∈ g.binds, x.BindNoted b ∧ ∀ i ∈ b.idents, i ∈ g.monos.values := by
  refine .skip .get fun s => ?_
  refine .skip_of (evolves_groupIdents hn _ _) (returns_identifies _ _) fun monos hids => ?_
  have hcheck {j : Job} (hj : j ∈ js) {H : Prop} : x.Yields H (j.check (env.extend monos) monos)
      fun b => x.BindNoted b ∧ ∀ i ∈ b.idents, i ∈ monos.values := by
    have hbound (y : String × Span) (hy : y ∈ j.binders) :=
      hids.bound y (List.mem_flatMap_of_mem hj hy)
    exact (yields_check hx (h j hj) (hk.extend monos) monos).mono id fun b hb =>
      ⟨hb.1, hb.2 hbound⟩
  exact .bind (yields_collecting (.mapM fun j hj => hcheck hj)) fun r => .pure And.right

theorem yields_inferGroup {env : Env} (hk : x.Knows env.globals) {nameOf : String → CheckM Name}
    (hn : ∀ occ, Quiet (nameOf occ)) {js : List Job} (h : ∀ j ∈ js, x.JobInferring j) :
    x.Yields H (inferGroup env nameOf js) fun r => x.BindNoted r.1 := by
  refine .bind (yields_openGroup hx hk hn h) fun g => ?_
  refine ⟨evolves_closeGroup env g _, fun s _ hg => ?_⟩
  refine ⟨evolves_closeGroup env g _ s, fun y hy => ?_⟩
  -- Generalising a group puts all its bindings under one.
  obtain ⟨tvs, poly, -, heq⟩ := closeGroup_fst env g (groupLoc js) s
  rw [heq, Typed.Bind.nodes, List.mem_cons, Typed.mem_nodesOf_binds] at hy
  rcases hy with rfl | ⟨b, hb, hy⟩
  · intro b hb i hi
    obtain ⟨m, hm, rfl⟩ := List.mem_map.1 ((hg.2 b hb).2 i hi)
    rw [← List.map_prod_right_eq_zip, List.map_map, List.map_map]
    exact List.mem_map.2 ⟨m, hm, rfl⟩
  · exact (hg.2 b hb).1 y hy

theorem yields_inferGroups {env : Env} (hk : x.Knows env.globals) {gs : List (List Job)}
    (h : ∀ g ∈ gs, ∀ j ∈ g, x.JobInferring j) :
    x.Yields H (inferGroups env gs) fun r => ∀ b ∈ r.1, x.BindNoted b := by
  induction gs generalizing env H with
  | nil => exact .pure fun _ => by simp
  | cons g gs ih =>
    have hg := yields_inferGroup hx (H := H) hk (quiet_localName env) (h g (List.mem_cons_self ..))
    refine .bind hg fun r => ?_
    refine .bind (ih (hk.extend r.2) fun g hg => h g (List.mem_cons_of_mem _ hg)) fun r' => .pure ?_
    rintro ⟨⟨-, hr⟩, hr'⟩
    exact List.forall_mem_cons.2 ⟨hr, hr'⟩

theorem yields_inferLocals {env : Env} (hk : x.Knows env.globals)
    {js : List (Surface.Dependencies × Job)} (h : ∀ j ∈ js, x.JobInferring j.2) :
    x.Yields H (inferLocals env js) fun r => ∀ b ∈ r.1, x.BindNoted b := by
  refine .skip (quiet_reportRepeated _ _).evolves fun _ => ?_
  refine yields_inferGroups hx hk fun g hg j hj => ?_
  obtain ⟨y, hy, rfl⟩ := Surface.mem_of_mem_groupsOf hg hj
  exact h y hy

theorem yields_checkSigned {env : Env} (hk : x.Knows env.globals) (poly : Typed.Ident) {j : FunJob}
    (h : x.FunInferring j) : x.Yields H (checkSigned env poly j) x.BindNoted := by
  have hdict (p : Pred) : Quiet (do return (⟨← dictName env p.cls, p⟩ : Typed.DictVar)) :=
    .bind (quiet_localName _ _) fun _ => .pure _
  refine .skip (.mapM fun p _ => (hdict p).evolves) fun givens => ?_
  let inner : Env := { env with
    givens := env.givens ++ givens, rigid := env.rigid ++ poly.scheme.tvs }
  have hki : x.Knows inner.globals := hk
  refine .bind (yields_collecting (yields_checkGroup hx hki _ h)) fun r => .skip .get fun s => ?_
  refine .skip (quiet_solve _ _ _).evolves fun _ => .pure fun hr n hn => ?_
  rw [Typed.Bind.nodes, List.mem_cons, Typed.mem_nodesOf_binds] at hn
  rcases hn with rfl | ⟨b, hb, hn⟩
  · exact List.forall_mem_singleton.2 fun i hi => hi
  · obtain rfl := List.mem_singleton.1 hb
    exact hr.2.2.bindNoted _ _ n hn

-- Expressions

theorem inferring_app (env : Env) {f a : Surface.Expr} (l : Span) (hf : x.Inferring (infer env f))
    (ha : x.Inferring (infer env a)) : x.Inferring (infer env (.app f a l)) := by
  intro H
  unfold infer
  refine .bind (hf _) fun f' => .bind (ha _) fun a' => .bind (yields_zonk f'.2) fun t => ?_
  let e : Typed.Expr := .app f'.1 a'.1 l
  have hn : e.nodes = .expr e :: (f'.1.nodes ++ a'.1.nodes) := by simp only [e, Typed.Expr.nodes]
  have hns (hf : x.Infers f'.1 f'.2) (ha : x.Infers a'.1 a'.2) :
      ∀ n ∈ f'.1.nodes ++ a'.1.nodes, x.Accounts n :=
    fun n hn => (List.mem_append.1 hn).elim (hf.nodes n) (ha.nodes n)
  split
  · next p t' ht =>
    refine .bind (yields_unify _ _ _) fun _ => yields_note (e := e) trivial hn ?_ ?_
    · rintro ⟨⟨⟨⟨-, hf⟩, ha⟩, -⟩, -⟩
      exact hns hf ha
    · rintro ⟨⟨⟨⟨-, hf⟩, -⟩, hzonk⟩, -⟩ -
      rw [Ty.eq_fn_of_splitFn? ht] at hzonk
      exact hx.app _ (hx.cast hf.holds hzonk.symm)
  · refine .skip evolves_freshUvar fun t' => .bind (yields_unify _ _ _) fun _ => ?_
    refine yields_note (e := e) trivial hn ?_ ?_
    · rintro ⟨⟨⟨⟨-, hf⟩, ha⟩, -⟩, -⟩
      exact hns hf ha
    · rintro ⟨⟨⟨⟨-, hf⟩, -⟩, -⟩, heq⟩ -
      exact hx.app _ (hx.cast hf.holds heq.symm)

end

-- By recursion on the tree, with one theorem for each function that turns parts of it into actions.

theorem pats_matchRow (m : Surface.Match) : (matchRow m).pats = m.pats := by
  cases m
  rw [matchRow]
  rfl

theorem matchRows_eq_map (ms : List Surface.Match) : matchRows ms = ms.map matchRow := by
  induction ms with
  | nil => rw [matchRows, List.map_nil]
  | cons m ms ih => rw [matchRows, ih, List.map_cons]

theorem altRows_eq_nil_iff {as : List Surface.Alt} : altRows as = [] ↔ as = [] := by
  rcases as with - | ⟨⟨p, e, l⟩, as⟩ <;> simp [altRows]

theorem length_pats_altRows (as : List Surface.Alt) : ∀ r ∈ altRows as, r.pats.length = 1 := by
  induction as with
  | nil =>
    rw [altRows]
    exact List.forall_mem_nil _
  | cons a as ih =>
    cases a
    rw [altRows]
    exact List.forall_mem_cons.2 ⟨rfl, ih⟩

mutual

theorem inferring_infer (hx : x.Closed) {env : Env} (hk : x.Knows env.globals) :
    ∀ e : Surface.Expr, (x.Neat → e.Neat) → x.Inferring (infer env e)
  | .var n l, _ => by
    unfold infer
    exact inferring_inferVar hx env n l
  | .con n l, _ => by
    unfold infer
    exact inferring_inferCon hx env n l
  | .lit v l, _ => by
    intro H
    unfold infer
    have hw : WellShaped (.lit v l, v.ty) := trivial
    exact yields_note hw rfl (fun _ y hy => absurd hy List.not_mem_nil) fun _ _ => hx.lit v l
  | .app f a l, he => inferring_app hx env l (inferring_infer hx hk f fun h => (he h).1)
      (inferring_infer hx hk a fun h => (he h).2)
  | .row e es l, he => by
    unfold infer
    exact inferring_inferRow hx env _ _ (inferring_infer hx hk e fun h => (he h).1)
      (inferring_operands hx hk es fun h => (he h).2)
  | .lambda ps e l, he => by
    intro H
    unfold infer
    refine .skip evolves_freshUvar fun t => ?_
    refine .bind (yields_checkGroup hx hk t ⟨?_, fun _ => List.forall_mem_nil _⟩) fun g => ?_
    · exact List.forall_mem_singleton.2 fun env hk => inferring_infer hx hk e he
    · have hw : WellShaped (.lambda g l, g.ty) := trivial
      have hn : Typed.Expr.nodes (.lambda g l) = .expr (.lambda g l) :: g.nodes := by
        simp only [Typed.Expr.nodes]
      refine yields_note hw hn (fun hg => hg.2.2.nodes) fun hg _ => ?_
      exact hx.lambda l hg.2.1 hg.2.2.holds
  | .letIn bs e l, he => by
    intro H
    unfold infer
    have hjobs := inferring_jobs hx bs fun h => (he h).1
    refine .bind_of (yields_inferLocals hx hk hjobs) (returns_inferLocals env _) fun r hr => ?_
    refine .bind (inferring_infer hx (hr ▸ hk) e (fun h => (he h).2) _) fun e' => ?_
    have hw : WellShaped (.letIn r.1 e'.1 l, e'.2) := trivial
    have hn : Typed.Expr.nodes (.letIn r.1 e'.1 l) =
        .expr (.letIn r.1 e'.1 l) :: (Typed.Bind.nodesOf r.1 ++ e'.1.nodes) := by
      simp only [Typed.Expr.nodes]
    refine yields_note hw hn ?_ fun he _ => hx.letIn l he.2.holds
    rintro ⟨⟨-, hbs⟩, he⟩ n hn
    rcases List.mem_append.1 hn with hn | hn
    · obtain ⟨b, hb, hn⟩ := Typed.mem_nodesOf_binds.1 hn
      exact hbs b hb n hn
    · exact he.nodes n hn
  | .ifThenElse c y n l, he => by
    intro H
    unfold infer
    refine .bind (inferring_infer hx hk c (fun h => (he h).1) _) fun c' => ?_
    refine .skip (evolves_unify _ _ _) fun _ => ?_
    refine .bind (inferring_infer hx hk y (fun h => (he h).2.1) _) fun y' => ?_
    refine .bind (inferring_infer hx hk n (fun h => (he h).2.2) _) fun n' => ?_
    refine .skip (evolves_unify _ _ _) fun _ => ?_
    have hw : WellShaped (.ifThenElse c'.1 y'.1 n'.1 l, y'.2) := trivial
    have hnodes : Typed.Expr.nodes (.ifThenElse c'.1 y'.1 n'.1 l) =
        .expr (.ifThenElse c'.1 y'.1 n'.1 l) :: (c'.1.nodes ++ y'.1.nodes ++ n'.1.nodes) := by
      simp only [Typed.Expr.nodes]
    refine yields_note hw hnodes ?_ fun h _ => hx.ifThenElse l h.1.2.holds
    rintro ⟨⟨⟨-, hc⟩, hy⟩, hn⟩ z hz
    simp only [List.mem_append] at hz
    rcases hz with (hz | hz) | hz
    · exact hc.nodes z hz
    · exact hy.nodes z hz
    · exact hn.nodes z hz
  | .caseOf s as l, he => by
    intro H
    unfold infer
    refine .bind (inferring_infer hx hk s (fun h => (he h).1) _) fun s' => ?_
    refine .skip evolves_freshUvar fun t => ?_
    have hrows {H : Prop} : x.Yields H ((altRows as).mapM (checkRow env [s'.2] t)) fun ms =>
        ∀ m ∈ ms, x.RowInfers m [s'.2] t :=
      .mapM fun r hr => yields_checkRow hx hk [s'.2] t
        (inferring_altRows hx as (fun h => (he h).2.2) r hr) fun _ => length_pats_altRows as r hr
    have hlength : Returns ((altRows as).mapM (checkRow env [s'.2] t)) fun ms =>
        List.Forall₂ (fun _ _ => True) (altRows as) ms := .mapM fun _ _ _ => trivial
    refine .bind_of hrows hlength fun ms hms => ?_
    let g : Typed.MatchGroup := .mk ms [s'.2] t
    have hne (hneat : x.Neat) : ms ≠ [] := by
      rintro rfl
      exact (he hneat).2.1 (altRows_eq_nil_iff.1 (List.forall₂_nil_right_iff.1 hms))
    have hw : WellShaped (.caseOf s'.1 g l, t) := trivial
    have hn : Typed.Expr.nodes (.caseOf s'.1 g l) =
        .expr (.caseOf s'.1 g l) :: (s'.1.nodes ++ g.nodes) := by simp only [Typed.Expr.nodes]
    refine yields_note hw hn ?_ fun h _ => hx.caseOf l (Covers.mk hne h.2 : x.Covers g).holds
    rintro ⟨⟨-, hs⟩, hg⟩ n hn
    rcases List.mem_append.1 hn with hn | hn
    · exact hs.nodes n hn
    · exact (Covers.mk hne hg : x.Covers g).nodes n hn
  | .list es l, he => by
    intro H
    unfold infer
    refine .skip evolves_freshUvar fun t => ?_
    refine .bind (yields_inferElems t (inferring_parts hx hk es he)) fun es' => ?_
    have hw : WellShaped (.list es' t l, .list t) := trivial
    have hn : Typed.Expr.nodes (.list es' t l) =
        .expr (.list es' t l) :: Typed.Expr.nodesOf es' := by simp only [Typed.Expr.nodes]
    refine yields_note hw hn ?_ fun _ _ => hx.list es' t l
    intro h n hn
    obtain ⟨e, he, hn⟩ := Typed.mem_nodesOf_list.1 hn
    exact h.2 e he n hn
  | .par e l, he => by
    intro H
    unfold infer
    refine .bind (inferring_infer hx hk e he _) fun e' => ?_
    have hw : WellShaped (.par e'.1 l, e'.2) := trivial
    have hn : Typed.Expr.nodes (.par e'.1 l) = .expr (.par e'.1 l) :: e'.1.nodes := by
      simp only [Typed.Expr.nodes]
    refine yields_note hw hn (fun he => he.2.nodes) fun he _ => ?_
    exact hx.par l he.2.holds

theorem inferring_parts (hx : x.Closed) {env : Env} (hk : x.Knows env.globals) :
    ∀ es : List Surface.Expr, (x.Neat → Surface.Expr.AllNeat es) →
      ∀ p ∈ parts env es, x.Inferring p.infer
  | [], _, p, hp => by
    unfold parts at hp
    cases hp
  | e :: es, he, p, hp => by
    unfold parts at hp
    rcases List.mem_cons.1 hp with rfl | hp
    · exact inferring_infer hx hk e fun h => (he h).1
    · exact inferring_parts hx hk es (fun h => (he h).2) p hp

theorem inferring_operands (hx : x.Closed) {env : Env} (hk : x.Knows env.globals) :
    ∀ es : List Surface.Operand, (x.Neat → Surface.Operand.AllNeat es) →
      ∀ p ∈ operands env es, x.Inferring p.2.infer
  | [], _, p, hp => by
    unfold operands at hp
    cases hp
  | .mk op e :: es, he, p, hp => by
    unfold operands at hp
    rcases List.mem_cons.1 hp with rfl | hp
    · exact inferring_infer hx hk e fun h => (he h).1
    · exact inferring_operands hx hk es (fun h => (he h).2) p hp

theorem inferring_altRows (hx : x.Closed) :
    ∀ as : List Surface.Alt, (x.Neat → Surface.Alt.AllNeat as) → ∀ r ∈ altRows as, x.RowInferring r
  | [], _, r, hr => by
    unfold altRows at hr
    cases hr
  | .mk p e l :: as, he, r, hr => by
    unfold altRows at hr
    rcases List.mem_cons.1 hr with rfl | hr
    · exact fun env hk => inferring_infer hx hk e fun h => (he h).1
    · exact inferring_altRows hx as (fun h => (he h).2) r hr

theorem inferring_matchRow (hx : x.Closed) :
    ∀ m : Surface.Match, (x.Neat → m.Neat) → x.RowInferring (matchRow m)
  | .mk ps e l, he => by
    unfold matchRow
    exact fun env hk => inferring_infer hx hk e he

theorem inferring_matchRows (hx : x.Closed) :
    ∀ ms : List Surface.Match, (x.Neat → Surface.Match.AllNeat ms) →
      ∀ r ∈ matchRows ms, x.RowInferring r
  | [], _, r, hr => by
    unfold matchRows at hr
    cases hr
  | m :: ms, he, r, hr => by
    unfold matchRows at hr
    rcases List.mem_cons.1 hr with rfl | hr
    · exact inferring_matchRow hx m fun h => (he h).1
    · exact inferring_matchRows hx ms (fun h => (he h).2) r hr

theorem inferring_funJob (hx : x.Closed) :
    ∀ b : Surface.FunBind, (x.Neat → b.Neat) → x.FunInferring (funJob b)
  | .mk n nl m ms l, he => by
    unfold funJob
    refine ⟨List.forall_mem_cons.2 ⟨?_, ?_⟩, fun hneat r hr => ?_⟩
    · exact inferring_matchRow hx m fun h => (he h).2.1
    · exact inferring_matchRows hx ms fun h => (he h).2.2
    · rw [matchRows_eq_map] at hr
      obtain ⟨m', hm', rfl⟩ := List.mem_map.1 hr
      rw [pats_matchRow, pats_matchRow]
      exact (he hneat).1 m' (List.mem_cons_of_mem _ hm')

theorem inferring_job (hx : x.Closed) :
    ∀ b : Surface.Binding, (x.Neat → b.Neat) → x.JobInferring (job b)
  | .fn b, he => by
    unfold job
    exact inferring_funJob hx b he
  | .pat (.mk p e l), he => by
    unfold job
    exact fun env hk => inferring_infer hx hk e he

theorem inferring_jobs (hx : x.Closed) :
    ∀ bs : List Surface.Binding, (x.Neat → Surface.Binding.AllNeat bs) →
      ∀ j ∈ jobs bs, x.JobInferring j.2
  | [], _, j, hj => by
    unfold jobs at hj
    cases hj
  | b :: bs, he, j, hj => by
    unfold jobs at hj
    rcases List.mem_cons.1 hj with rfl | hj
    · exact inferring_job hx b fun h => (he h).1
    · exact inferring_jobs hx bs (fun h => (he h).2) j hj

end

-- Modules

variable (x) in
/-- Groups and bindings with signatures have a property, wherever in a module they are. -/
structure BindRule (Q : Typed.Bind → Prop) : Prop where
  group {H : Prop} {env : Env} (hk : x.Knows env.globals) {nameOf : String → CheckM Name}
    (hn : ∀ occ, Quiet (nameOf occ)) {js : List Job} (h : ∀ j ∈ js, x.JobInferring j) :
    x.Yields H (inferGroup env nameOf js) fun r => Q r.1
  signed {H : Prop} {env : Env} (hk : x.Knows env.globals) (poly : Typed.Ident) {j : FunJob}
    (h : x.FunInferring j) : x.Yields H (checkSigned env poly j) Q

theorem bindRule_noted (hx : x.Closed) : x.BindRule x.BindNoted :=
  ⟨yields_inferGroup hx, yields_checkSigned hx⟩

section

variable {Q : Typed.Bind → Prop} (hQ : x.BindRule Q)
include hQ

omit hQ in
theorem Knows.addIdents {d : Declaring} (hk : x.Knows d.globals) (ids : Bound) :
    x.Knows (addIdents d ids).globals := by
  unfold Check.addIdents
  induction ids generalizing d with
  | nil => exact hk
  | cons i ids ih =>
    refine ih fun n c hc => ?_
    have hput : (d.globals.entities.put _ _).get? n = some (.dataCon c) := hc
    rw [Table.get?_put] at hput
    split at hput
    · cases hput
    · exact hk n c hput

omit hQ in
theorem Knows.returns_topGroup {d : Declaring} (hk : x.Knows d.globals) (g : List Job) :
    Returns (topGroup d g) (x.Knows ·.2.globals) := by
  unfold topGroup
  split
  · exact .pure hk
  dsimp only
  split
  · split
    · exact .skip fun _ => .pure hk
    · exact .skip fun r => .pure (hk.addIdents r.2)
  · exact .skip fun r => .pure (hk.addIdents r.2)

omit hQ in
theorem Knows.returns_topGroups {d : Declaring} (hk : x.Knows d.globals) (gs : List (List Job)) :
    Returns (topGroups d gs) (x.Knows ·.2.globals) := by
  induction gs generalizing d with
  | nil => exact .pure hk
  | cons g gs ih =>
    exact .bind (hk.returns_topGroup g) fun r hr => .bind (ih hr) fun _ hr' => .pure hr'

theorem yields_topGroup {d : Declaring} (hk : x.Knows d.globals) {g : List Job}
    (h : ∀ j ∈ g, x.JobInferring j) : x.Yields H (topGroup d g) fun r => ∀ b ∈ r.1, Q b := by
  have hname (occ : String) : Quiet (pure (topName d.globals.module .value occ) : CheckM Name) :=
    .pure _
  have hgroup {H : Prop} : x.Yields H
      (inferGroup { globals := d.globals }
          (fun occ => return topName d.globals.module .value occ) g >>= fun r =>
        return ([r.1], addIdents d r.2)) fun r => ∀ b ∈ r.1, Q b :=
    .bind (hQ.group hk hname h) fun r => .pure fun hr => List.forall_mem_singleton.2 hr.2
  unfold topGroup
  split
  · exact .pure fun _ => by simp
  dsimp only
  split
  · split
    · refine .bind (hQ.signed hk _ (h _ (List.mem_singleton.2 rfl))) fun b => .pure ?_
      exact fun hb => List.forall_mem_singleton.2 hb.2
    · exact hgroup
  · exact hgroup

theorem yields_topGroups {d : Declaring} (hk : x.Knows d.globals) {gs : List (List Job)}
    (h : ∀ g ∈ gs, ∀ j ∈ g, x.JobInferring j) :
    x.Yields H (topGroups d gs) fun r => ∀ b ∈ r.1, Q b := by
  induction gs generalizing d H with
  | nil => exact .pure fun _ => by simp
  | cons g gs ih =>
    refine .bind_of (yields_topGroup hQ hk (h g (List.mem_cons_self ..))) (hk.returns_topGroup g)
      fun r hr => ?_
    refine .bind (ih hr fun g hg => h g (List.mem_cons_of_mem _ hg)) fun r' => .pure ?_
    rintro ⟨⟨-, hr⟩, hr'⟩
    exact List.forall_mem_append.2 ⟨hr, hr'⟩

theorem yields_methodBinds {env : Env} (hk : x.Knows env.globals) (c : TypeClass) (i : Instance)
    (seen : List String) {js : List FunJob} (h : ∀ j ∈ js, x.FunInferring j) :
    x.Yields H (methodBinds env c i seen js) fun r => ∀ b ∈ r.1, Q b := by
  induction js generalizing seen H with
  | nil => exact .pure fun _ => by simp
  | cons j js ih =>
    have ih {H : Prop} (seen : List String) :=
      ih (H := H) seen fun j hj => h j (List.mem_cons_of_mem _ hj)
    unfold methodBinds
    split
    · exact .skip (quiet_report _ _).evolves fun _ => ih _
    split
    · exact .skip (quiet_report _ _).evolves fun _ => ih _
    · refine .skip (quiet_localName _ _).evolves fun n => ?_
      refine .bind (hQ.signed hk _ (h j (List.mem_cons_self ..))) fun b => ?_
      refine .bind (ih _) fun r => .pure ?_
      rintro ⟨⟨-, hb⟩, hr⟩
      exact List.forall_mem_cons.2 ⟨hb, hr⟩

variable (hx : x.Closed)
include hx

theorem yields_instanceBinds {g : Globals} (hk : x.Knows g)
    {d : Instance × Surface.InstanceDecl} (hd : x.Neat → ∀ b ∈ d.2.binds, b.Neat) :
    x.Yields H (instanceBinds g d) fun bs => ∀ b ∈ bs, Q b := by
  unfold instanceBinds
  split
  · refine .bind (yields_methodBinds hQ hk _ _ _ fun j hj => ?_) fun r => ?_
    · obtain ⟨b, hb, rfl⟩ := List.mem_map.1 hj
      exact inferring_funJob hx b fun h => hd h b hb
    · exact .skip (.forM fun m _ => (quiet_reportIf _ _ _).evolves) fun _ => .pure And.right
  · exact .pure fun _ => by simp

theorem yields_binds {d : Declaring} (hk : x.Knows d.globals)
    {instances : List (Instance × Surface.InstanceDecl)} {m : Surface.Module}
    (hm : x.Neat → Surface.Binding.AllNeat m.bindings)
    (hi : x.Neat → ∀ i ∈ instances, ∀ b ∈ i.2.binds, b.Neat) :
    x.Yields H (binds d instances m) fun r => ∀ b ∈ r.1, Q b := by
  refine .bind_of (yields_topGroups hQ hk fun g hg j hj => ?_) (hk.returns_topGroups _)
    fun r hr => ?_
  · obtain ⟨y, hy, rfl⟩ := Surface.mem_of_mem_groupsOf hg hj
    exact inferring_jobs hx _ hm y hy
  · refine .bind (.mapM fun i hmem => yields_instanceBinds hQ hx hr fun h => hi h i hmem) ?_
    refine fun bss => .pure ?_
    rintro ⟨⟨-, hr⟩, hbss⟩
    refine List.forall_mem_append.2 ⟨hr, fun b hb => ?_⟩
    obtain ⟨bs, hbs, hb⟩ := List.mem_flatten.1 hb
    exact hbss bs hbs b hb

end

/-- An end of which nothing else is said. -/
def plain (σ : Subst) (inferred : List Inferred) : Finish :=
  ⟨σ, inferred, fun _ _ => True, fun _ => True, False⟩

variable {σ : Subst} {inferred : List Inferred}

theorem plain_closed : (plain σ inferred).Closed := by
  constructor <;> intros <;> trivial

theorem plain_knows (g : Globals) : (plain σ inferred).Knows g := fun _ _ _ => trivial

/-- What an expression of the resolved tree is. -/
theorem noted_of_accounts (a : Typed.Answers) {bs : List Typed.Bind}
    (h : ∀ b ∈ bs, x.BindNoted b) : ∀ y ∈ Typed.exprsOf (Typed.Bind.nodesOf (a.binds bs)),
      (∃ p ∈ x.inferred, y = a.expr p.1) ∨ ∃ h, y = .head h .unknown := by
  intro y hy
  rw [Typed.mem_exprsOf, Typed.nodes_binds, List.mem_map] at hy
  obtain ⟨n, hn, hy⟩ := hy
  obtain ⟨b, hb, hn⟩ := Typed.mem_nodesOf_binds.1 hn
  cases n with
  | expr z =>
    obtain rfl := Typed.Node.expr.inj hy
    rcases h b hb _ hn with ⟨t, ht⟩ | ⟨h, rfl⟩
    · exact .inl ⟨_, ht, rfl⟩
    · exact .inr ⟨_, rfl⟩
  | _ => cases hy

end Finish

theorem evolves_openGroup (env : Env) {nameOf : String → CheckM Name}
    (hn : ∀ occ, Quiet (nameOf occ)) (bs : List Surface.Binding) :
    Evolves WellShaped (openGroup env nameOf (bs.map job)) := by
  let x : Finish := .plain .empty []
  have hx : x.Closed := Finish.plain_closed
  refine (Finish.yields_openGroup hx (H := True) (Finish.plain_knows _) hn fun j hj => ?_).1
  obtain ⟨b, -, rfl⟩ := List.mem_map.1 hj
  exact Finish.inferring_job hx b nofun

theorem evolves_binds (d : Declaring) (instances : List (Instance × Surface.InstanceDecl))
    (m : Surface.Module) : Evolves WellShaped (binds d instances m) :=
  let x : Finish := .plain .empty []
  have hx : x.Closed := Finish.plain_closed
  (Finish.yields_binds (Finish.bindRule_noted hx) hx (H := True) (Finish.plain_knows _)
    nofun nofun).1

end Check

end TypeLens
