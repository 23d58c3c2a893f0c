import TypeLens.Proofs.Checking.Columns
import TypeLens.Proofs.Checking.Constraints
import TypeLens.Proofs.Lowering.Refinement

/-!
When lowering fails. In a module that is accepted the only cause is a class constraint without a
solution; all types are read off and all constructors are found.
-/

namespace TypeLens

namespace Typed

/-- All evidence at the occurrences in a tree is complete. -/
def Complete (ns : List Node) : Prop := ∀ y ∈ exprsOf ns, Hole.allComplete y.dicts

@[simp] theorem complete_nil : Complete [] := fun _ h => absurd h List.not_mem_nil

@[simp] theorem complete_append {ns ms : List Node} :
    Complete (ns ++ ms) ↔ Complete ns ∧ Complete ms := by
  simp only [Complete, exprsOf_append, List.forall_mem_append]

@[simp] theorem complete_expr {e : Expr} {ns : List Node} :
    Complete (.expr e :: ns) ↔ Hole.allComplete e.dicts ∧ Complete ns := by
  simp only [Complete, exprsOf_expr, List.forall_mem_cons]

@[simp] theorem complete_bind {b : Bind} {ns : List Node} :
    Complete (.bind b :: ns) ↔ Complete ns := Iff.rfl

@[simp] theorem complete_pat {p : Pat} {ns : List Node} :
    Complete (.pat p :: ns) ↔ Complete ns := Iff.rfl

@[simp] theorem complete_row {m : Match} {ns : List Node} :
    Complete (.row m :: ns) ↔ Complete ns := Iff.rfl

@[simp] theorem complete_group {g : MatchGroup} {ns : List Node} :
    Complete (.group g :: ns) ↔ Complete ns := Iff.rfl

mutual

/-- There are no occurrences in patterns. -/
@[simp] theorem complete_nodes_pat : ∀ p : Pat, Complete p.nodes
  | .var _ _ | .wild _ _ | .lit _ _ => complete_nil
  | .con _ _ ps _ _ => by
    rw [Pat.nodes]
    exact complete_nodesOf_pats ps
  | .par p _ => by
    rw [Pat.nodes]
    exact complete_nodes_pat p

@[simp] theorem complete_nodesOf_pats : ∀ ps : List Pat, Complete (Pat.nodesOf ps)
  | [] => complete_nil
  | p :: ps => by
    rw [Pat.nodesOf]
    exact complete_append.2 ⟨complete_nodes_pat p, complete_nodesOf_pats ps⟩

end

end Typed

namespace Core

open Typed (Node Hole Complete)

/-- An action has a result if `P` holds, and fails for an unsolved constraint if not. -/
def Decides {α : Type} (act : LowerM α) (P : Prop) : Prop :=
  ∀ n, P ∧ (∃ r, act.run n = .ok r) ∨ ¬ P ∧ ∃ p, act.run n = .error (.unsolved p)

namespace Decides

variable {α β : Type} {act : LowerM α} {f : α → LowerM β} {P Q : Prop}

theorem pure (a : α) : Decides (Pure.pure a) True := fun _ => .inl ⟨trivial, _, rfl⟩

theorem bind (h : Decides act P) (hf : ∀ n r, act.run n = .ok r → Decides (f r.1) Q) :
    Decides (act >>= f) (P ∧ Q) := by
  intro n
  rw [StateT.run_bind]
  rcases h n with ⟨hP, r, hr⟩ | ⟨hP, p, hp⟩
  · rw [hr]
    rcases hf n r hr r.2 with ⟨hQ, hok⟩ | ⟨hQ, herr⟩
    · exact .inl ⟨⟨hP, hQ⟩, hok⟩
    · exact .inr ⟨fun h => hQ h.2, herr⟩
  · rw [hp]
    exact .inr ⟨fun h => hP h.1, p, rfl⟩

theorem iff (h : Decides act P) (hiff : P ↔ Q) : Decides act Q := by
  rwa [propext hiff] at h

/-- An action that does not fail may come first. -/
theorem skip (h : Decides act True) (hf : ∀ n r, act.run n = .ok r → Decides (f r.1) Q) :
    Decides (act >>= f) Q :=
  (h.bind hf).iff (iff_of_eq (true_and Q))

theorem map (h : Decides act P) (g : α → β) : Decides (act >>= fun a => Pure.pure (g a)) P :=
  (h.bind fun _ r _ => .pure (g r.1)).iff (iff_of_eq (and_true P))

end Decides

/-- A constructor can be looked up. -/
def Context.Has (c : Context) (k : Name) : Prop := ∃ d, c.entity? k = some (.dataCon d)

/-- If an expression has a core term, then that has a type. -/
def Typeable (c : Context) (e : Typed.Expr) : Prop :=
  ∀ n r, (Lower.expr c e).run n = .ok r → ∃ t, r.1.type = .ok t

/-- In a tree, core terms of expressions have types, and constructors can be looked up. -/
structure Lowerable (c : Context) (ns : List Node) : Prop where
  typed : ∀ y, .expr y ∈ ns → Typeable c y
  constructors : ∀ k ts ps t l, .pat (.con k ts ps t l) ∈ ns → c.Has k

theorem Lowerable.mono {c : Context} {ns ms : List Node} (h : Lowerable c ns) (hs : ms ⊆ ns) :
    Lowerable c ms :=
  ⟨fun y hy => h.typed y (hs hy), fun k ts ps t l hp => h.constructors k ts ps t l (hs hp)⟩

theorem lowerable_append {c : Context} {ns ms : List Node} :
    Lowerable c (ns ++ ms) ↔ Lowerable c ns ∧ Lowerable c ms := by
  refine ⟨fun h => ⟨h.mono (List.subset_append_left ..), h.mono ?_⟩, ?_⟩
  · exact List.subset_append_right ..
  rintro ⟨h, h'⟩
  refine ⟨fun y hy => ?_, fun k ts ps t l hp => ?_⟩
  · exact (List.mem_append.1 hy).elim (h.typed y) (h'.typed y)
  · exact (List.mem_append.1 hp).elim (h.constructors k ts ps t l) (h'.constructors k ts ps t l)

theorem Lowerable.tail {c : Context} {n : Node} {ns : List Node} (h : Lowerable c (n :: ns)) :
    Lowerable c ns := h.mono (List.subset_cons_self ..)

/-- The constructors of lists can be looked up, and are those of the bundled module. -/
structure Context.FindsLists (c : Context) : Prop where
  nil : ∃ d, c.entity? Builtin.nilCon = some (.dataCon d) ∧
    d.scheme = ⟨["a"], [], .list (.var "a")⟩
  cons : ∃ d, c.entity? Builtin.consCon = some (.dataCon d) ∧
    d.scheme = ⟨["a"], [], .fns [.var "a", .list (.var "a")] (.list (.var "a"))⟩

theorem Context.FindsLists.scheme_nil {c : Context} (h : c.FindsLists) {d : DataCon}
    (hd : c.entity? Builtin.nilCon = some (.dataCon d)) :
    d.scheme = ⟨["a"], [], .list (.var "a")⟩ := by
  obtain ⟨d', hd', hs⟩ := h.nil
  cases hd'.symm.trans hd
  exact hs

theorem Context.FindsLists.scheme_cons {c : Context} (h : c.FindsLists) {d : DataCon}
    (hd : c.entity? Builtin.consCon = some (.dataCon d)) :
    d.scheme = ⟨["a"], [], .fns [.var "a", .list (.var "a")] (.list (.var "a"))⟩ := by
  obtain ⟨d', hd', hs⟩ := h.cons
  cases hd'.symm.trans hd
  exact hs

-- Evidence

mutual

theorem evidence_or : ∀ e : Typed.Evidence,
    e.complete ∧ (∃ t, Lower.evidence e = .ok t) ∨
      ¬ e.complete ∧ ∃ p, Lower.evidence e = .error (.unsolved p)
  | .byParam d => .inl ⟨rfl, _, rfl⟩
  | .byInstance i ts hs => by
    rw [Lower.evidence, Typed.Evidence.complete]
    rcases holes_or hs with ⟨hc, us, hus⟩ | ⟨hc, p, hp⟩
    · rw [hus]
      exact .inl ⟨hc, _, rfl⟩
    · rw [hp]
      exact .inr ⟨hc, p, rfl⟩

theorem hole_or : ∀ h : Hole,
    h.complete ∧ (∃ t, Lower.hole h = .ok t) ∨
      ¬ h.complete ∧ ∃ p, Lower.hole h = .error (.unsolved p)
  | .unsolved _ p => .inr ⟨nofun, p, rfl⟩
  | .solved _ e => by
    rw [Lower.hole, Hole.complete]
    exact evidence_or e

/-- Evidence has a term if and only if no hole in it is unsolved. -/
theorem holes_or : ∀ hs : List Hole,
    Hole.allComplete hs ∧ (∃ ts, Lower.holes hs = .ok ts) ∨
      ¬ Hole.allComplete hs ∧ ∃ p, Lower.holes hs = .error (.unsolved p)
  | [] => .inl ⟨rfl, _, rfl⟩
  | h :: hs => by
    rw [Lower.holes, Hole.allComplete, Bool.and_eq_true]
    rcases hole_or h with ⟨hc, t, ht⟩ | ⟨hc, p, hp⟩
    · rw [ht]
      rcases holes_or hs with ⟨hcs, ts, hts⟩ | ⟨hcs, p, hp⟩
      · rw [hts]
        exact .inl ⟨⟨hc, hcs⟩, _, rfl⟩
      · rw [hp]
        exact .inr ⟨fun h => hcs h.2, p, rfl⟩
    · rw [hp]
      exact .inr ⟨fun h => hc h.1, p, rfl⟩

end

theorem decides_holes (hs : List Hole) :
    Decides (liftM (Lower.holes hs) : LowerM (List Term)) (Hole.allComplete hs) := by
  intro n
  rcases holes_or hs with ⟨hc, ts, hts⟩ | ⟨hc, p, hp⟩
  · rw [hts]
    exact .inl ⟨hc, _, rfl⟩
  · rw [hp]
    exact .inr ⟨hc, p, rfl⟩

variable {c : Context}

-- Single steps

theorem decides_freshBinder (t : Ty) : Decides (Lower.freshBinder c t) True :=
  fun _ => .inl ⟨trivial, _, rfl⟩

theorem decides_freshBinders (ts : List Ty) : Decides (Lower.freshBinders c ts) True := by
  induction ts with
  | nil => exact .pure _
  | cons t ts ih => exact .skip (decides_freshBinder t) fun _ _ _ => ih.map _

theorem decides_typeOf {e : Term} (h : ∃ t, e.type = .ok t) : Decides (Lower.typeOf e) True := by
  obtain ⟨t, ht⟩ := h
  unfold Lower.typeOf
  rw [ht]
  exact .pure t

theorem decides_dataCon {k : Name} (h : c.Has k) : Decides (Lower.dataCon c k) True := by
  obtain ⟨d, hd⟩ := h
  unfold Lower.dataCon
  rw [hd]
  exact .pure d

theorem decides_conVar {k : Name} (h : c.Has k) (ts : List Ty) :
    Decides (Lower.conVar c k ts) True :=
  .skip (decides_dataCon h) fun _ _ _ => .pure _

-- Patterns

mutual

theorem decides_matchPat (b : Binder) {success : Term} (failure : Term)
    (hs : ∃ t, success.type = .ok t) : ∀ p : Typed.Pat, Lowerable c p.nodes →
      Decides (Lower.matchPat c b success failure p) True
  | .wild _ _, _ => by
    unfold Lower.matchPat
    exact .pure _
  | .par p _, hp => by
    unfold Lower.matchPat
    rw [Typed.Pat.nodes] at hp
    exact decides_matchPat b failure hs p hp.tail
  | .var i _, _ => by
    unfold Lower.matchPat
    exact .pure _
  | .lit v _, _ => by
    unfold Lower.matchPat
    exact .skip (decides_freshBinder _) fun _ _ _ => .skip (decides_typeOf hs) fun _ _ _ => .pure _
  | .con k ts ps u _, hp => by
    unfold Lower.matchPat
    rw [Typed.Pat.nodes] at hp
    refine .skip (decides_dataCon (hp.constructors k ts ps u _ (List.mem_cons_self ..)))
      fun _ _ _ => .skip (decides_freshBinders _) fun _ fields _ => ?_
    refine .skip (decides_matchPats failure hs fields.1 ps hp.tail) fun _ _ _ => ?_
    exact .skip (decides_freshBinder _) fun _ _ _ => .skip (decides_typeOf hs) fun _ _ _ => .pure _

theorem decides_matchPats {success : Term} (failure : Term) (hs : ∃ t, success.type = .ok t)
    (bs : List Binder) : ∀ ps : List Typed.Pat, Lowerable c (Typed.Pat.nodesOf ps) →
      Decides (Lower.matchPats c success failure bs ps) True
  | [], _ => by
    cases bs <;>
    · unfold Lower.matchPats
      exact .pure _
  | p :: ps, hps => by
    cases bs with
    | nil =>
      unfold Lower.matchPats
      exact .pure _
    | cons b bs =>
      unfold Lower.matchPats
      rw [Typed.Pat.nodesOf, lowerable_append] at hps
      refine .skip (decides_matchPats failure hs bs ps hps.2) fun _ inner hinner => ?_
      obtain ⟨t, ht⟩ := hs
      exact decides_matchPat b failure ⟨t, type_matchPats ht hinner⟩ p hps.1

end

theorem decides_selections (b : Binder) {p : Typed.Pat} (hp : Lowerable c p.nodes)
    (is : List Typed.Ident) : Decides (Lower.selections c b p is) True := by
  induction is with
  | nil =>
    unfold Lower.selections
    exact .pure _
  | cons i is ih =>
    unfold Lower.selections
    exact .skip (decides_matchPat b _ ⟨_, rfl⟩ p hp) fun _ _ _ => ih.map _

-- Expressions and bindings

mutual

theorem decides_expr (hl : c.FindsLists) : ∀ e : Typed.Expr, Lowerable c e.nodes →
    Decides (Lower.expr c e) (Complete e.nodes)
  | .head h l, _ => by
    unfold Lower.expr
    exact (Decides.pure _).iff (by simp [Typed.Expr.nodes, Typed.Expr.dicts, Hole.allComplete])
  | .inst h ts ds l, _ => by
    unfold Lower.expr
    refine ((decides_holes ds).map _).iff ?_
    simp [Typed.Expr.nodes, Typed.Expr.dicts, Hole.allComplete]
  | .lit v l, _ => by
    unfold Lower.expr
    exact (Decides.pure _).iff (by simp [Typed.Expr.nodes, Typed.Expr.dicts, Hole.allComplete])
  | .app f a l, h => by
    unfold Lower.expr
    rw [Typed.Expr.nodes] at h ⊢
    obtain ⟨hf, ha⟩ := lowerable_append.1 h.tail
    refine ((decides_expr hl f hf).bind fun _ _ _ => (decides_expr hl a ha).map _).iff ?_
    simp [Typed.Expr.dicts, Hole.allComplete]
  | .opApp x op y l, h => by
    unfold Lower.expr
    rw [Typed.Expr.nodes] at h ⊢
    obtain ⟨hxop, hy⟩ := lowerable_append.1 h.tail
    obtain ⟨hx, hop⟩ := lowerable_append.1 hxop
    refine ((decides_expr hl op hop).bind fun _ _ _ =>
      (decides_expr hl x hx).bind fun _ _ _ => (decides_expr hl y hy).map _).iff ?_
    simp [Typed.Expr.dicts, Hole.allComplete, and_left_comm]
  | .par e l, h => by
    unfold Lower.expr
    rw [Typed.Expr.nodes] at h ⊢
    refine (decides_expr hl e h.tail).iff ?_
    simp [Typed.Expr.dicts, Hole.allComplete]
  | .list es t l, h => by
    unfold Lower.expr
    rw [Typed.Expr.nodes] at h ⊢
    obtain ⟨d, hd, -⟩ := hl.nil
    refine (Decides.skip (decides_conVar ⟨d, hd⟩ [t]) fun _ nil _ =>
      decides_consAll hl t nil.1 es h.tail).iff ?_
    simp [Typed.Expr.dicts, Hole.allComplete]
  | .ifThenElse e y n l, h => by
    unfold Lower.expr
    rw [Typed.Expr.nodes] at h ⊢
    obtain ⟨hey, hn⟩ := lowerable_append.1 h.tail
    obtain ⟨he, hy⟩ := lowerable_append.1 hey
    refine ((decides_expr hl y hy).bind fun _ y' hy' => (decides_expr hl n hn).bind fun _ _ _ =>
      (decides_expr hl e he).bind fun _ _ _ => .skip (decides_freshBinder _) fun _ _ _ =>
        (decides_typeOf ?_).map _).iff ?_
    · refine hy.typed y ?_ _ _ hy'
      cases y <;> simp [Typed.Expr.nodes]
    · simp [Typed.Expr.dicts, Hole.allComplete, and_left_comm, and_comm]
  | .lambda g l, h => by
    unfold Lower.expr
    rw [Typed.Expr.nodes] at h ⊢
    refine (decides_lambda hl g h.tail).iff ?_
    simp [Typed.Expr.dicts, Hole.allComplete]
  | .caseOf e (.mk ms ts t) l, h => by
    unfold Lower.expr
    rw [Typed.Expr.nodes, Typed.MatchGroup.nodes] at h ⊢
    obtain ⟨he, hg⟩ := lowerable_append.1 h.tail
    refine (Decides.skip (decides_freshBinder _) fun _ b _ =>
      (decides_rows hl [b.1] (Lower.patError c t) ms hg.tail).bind fun _ _ _ =>
        (decides_expr hl e he).map _).iff ?_
    simp [Typed.Expr.dicts, Hole.allComplete, and_comm]
  | .letIn bs e l, h => by
    unfold Lower.expr
    rw [Typed.Expr.nodes] at h ⊢
    obtain ⟨hbs, he⟩ := lowerable_append.1 h.tail
    refine ((decides_expr hl e he).bind fun _ e' _ => decides_letBinds hl e'.1 bs hbs).iff ?_
    simp [Typed.Expr.dicts, Hole.allComplete, and_comm]

theorem decides_consAll (hl : c.FindsLists) (t : Ty) (nil : Term) : ∀ es : List Typed.Expr,
    Lowerable c (Typed.Expr.nodesOf es) →
      Decides (Lower.consAll c t nil (Lower.exprs c es)) (Complete (Typed.Expr.nodesOf es))
  | [], _ => by
    unfold Lower.exprs Lower.consAll
    exact (Decides.pure _).iff (by simp [Typed.Expr.nodesOf])
  | e :: es, h => by
    unfold Lower.exprs Lower.consAll
    rw [Typed.Expr.nodesOf] at h ⊢
    obtain ⟨he, hes⟩ := lowerable_append.1 h
    obtain ⟨d, hd, -⟩ := hl.cons
    refine ((decides_consAll hl t nil es hes).bind fun _ _ _ =>
      .skip (decides_conVar ⟨d, hd⟩ [t]) fun _ _ _ => (decides_expr hl e he).map _).iff ?_
    rw [Typed.complete_append, and_comm]

theorem decides_lambda (hl : c.FindsLists) : ∀ g : Typed.MatchGroup, Lowerable c g.nodes →
    Decides (Lower.lambda c g) (Complete g.nodes)
  | .mk ms ts t, h => by
    unfold Lower.lambda
    rw [Typed.MatchGroup.nodes] at h ⊢
    exact .skip (decides_freshBinders ts) fun _ bs _ =>
      (decides_rows hl bs.1 (Lower.patError c t) ms h.tail).map _

theorem decides_rows (hl : c.FindsLists) (bs : List Binder) (failure : Term) :
    ∀ ms : List Typed.Match, Lowerable c (Typed.Match.nodesOf ms) →
      Decides (Lower.rows c bs failure ms) (Complete (Typed.Match.nodesOf ms))
  | [], _ => by
    unfold Lower.rows
    exact (Decides.pure _).iff (by simp [Typed.Match.nodesOf])
  | .mk ps e l :: ms, h => by
    unfold Lower.rows
    rw [Typed.Match.nodesOf] at h ⊢
    obtain ⟨hpse, hms⟩ := lowerable_append.1 h.tail
    obtain ⟨hps, he⟩ := lowerable_append.1 hpse
    refine ((decides_rows hl bs failure ms hms).bind fun _ next _ =>
      (decides_expr hl e he).bind fun _ success hsuccess =>
        decides_matchPats next.1 (he.typed e ?_ _ _ hsuccess) bs ps hps).iff ?_
    · cases e <;> simp [Typed.Expr.nodes]
    · simp [and_comm]

theorem decides_letBinds (hl : c.FindsLists) (body : Term) :
    ∀ bs : List Typed.Bind, Lowerable c (Typed.Bind.nodesOf bs) →
      Decides (Lower.letBinds c body bs) (Complete (Typed.Bind.nodesOf bs))
  | [], _ => by
    unfold Lower.letBinds
    exact (Decides.pure _).iff (by simp [Typed.Bind.nodesOf])
  | b :: bs, h => by
    unfold Lower.letBinds
    rw [Typed.Bind.nodesOf] at h ⊢
    obtain ⟨hb, hbs⟩ := lowerable_append.1 h
    refine ((decides_letBinds hl body bs hbs).bind fun _ _ _ => (decides_bind hl b hb).map _).iff ?_
    rw [Typed.complete_append, and_comm]

theorem decides_bind (hl : c.FindsLists) : ∀ b : Typed.Bind, Lowerable c b.nodes →
    Decides (Lower.bind c b) (Complete b.nodes)
  | .fn i g l, h => by
    unfold Lower.bind
    rw [Typed.Bind.nodes] at h ⊢
    exact (decides_lambda hl g h.tail).map _
  | .pat p e is l, h => by
    unfold Lower.bind
    rw [Typed.Bind.nodes] at h ⊢
    obtain ⟨hp, he⟩ := lowerable_append.1 h.tail
    refine (Decides.skip (decides_freshBinder _) fun _ b _ =>
      (decides_expr hl e he).bind fun _ _ _ => (decides_selections b.1 hp is).map _).iff ?_
    simp
  | .abs tvs ds xs bs l, h => by
    unfold Lower.bind
    rw [Typed.Bind.nodes] at h ⊢
    exact (decides_binds hl bs h.tail).map _

theorem decides_binds (hl : c.FindsLists) : ∀ bs : List Typed.Bind,
    Lowerable c (Typed.Bind.nodesOf bs) →
      Decides (Lower.binds c bs) (Complete (Typed.Bind.nodesOf bs))
  | [], _ => by
    unfold Lower.binds
    exact (Decides.pure _).iff (by simp [Typed.Bind.nodesOf])
  | b :: bs, h => by
    unfold Lower.binds
    rw [Typed.Bind.nodesOf] at h ⊢
    obtain ⟨hb, hbs⟩ := lowerable_append.1 h
    refine ((decides_bind hl b hb).bind fun _ _ _ => (decides_binds hl bs hbs).map _).iff ?_
    rw [Typed.complete_append]

end

/-- An expression whose core term has a type if it exists has one, or a constraint is unsolved. -/
theorem lowerExpr_or (hl : c.FindsLists) {e : Typed.Expr} (h : Lowerable c e.nodes) :
    Complete e.nodes ∧ (∃ t, lowerExpr c e = .ok t) ∨
      ¬ Complete e.nodes ∧ ∃ p, lowerExpr c e = .error (.unsolved p) := by
  unfold lowerExpr
  rcases decides_expr hl e h 0 with ⟨hc, r, hr⟩ | ⟨hc, p, hp⟩
  · obtain ⟨t, ht⟩ := h.typed e (by cases e <;> simp [Typed.Expr.nodes]) 0 r hr
    rw [hr]
    refine .inl ⟨hc, r.1, ?_⟩
    simp only [ht, bind, Except.bind, pure, Except.pure]
  · rw [hp]
    exact .inr ⟨hc, p, rfl⟩

/-- Lowering such an expression fails if and only if evidence at an occurrence in it is incomplete,
and then for an unsolved constraint. -/
theorem lowerExpr_error_iff (hl : c.FindsLists) {e : Typed.Expr} (h : Lowerable c e.nodes) :
    ((∃ err, lowerExpr c e = .error err) ↔
      ∃ y ∈ Typed.exprsOf e.nodes, Hole.allComplete y.dicts = false) ∧
    ∀ err, lowerExpr c e = .error err → ∃ p, err = .unsolved p := by
  have hincomplete : (∃ y ∈ Typed.exprsOf e.nodes, Hole.allComplete y.dicts = false) ↔
      ¬ Complete e.nodes := by
    simp [Complete]
  rw [hincomplete]
  rcases lowerExpr_or hl h with ⟨hc, t, ht⟩ | ⟨hc, p, hp⟩
  · rw [ht]
    exact ⟨⟨nofun, fun h => absurd hc h⟩, nofun⟩
  · rw [hp]
    refine ⟨⟨fun _ => hc, fun _ => ⟨_, rfl⟩⟩, fun err h => ⟨p, ?_⟩⟩
    exact (Except.error.inj h).symm

end Core

namespace Check

open TypeLens.Core (Context Lowerable)
open Typed (Bind exprsOf)

variable {m : Surface.Module} {imports : List Exports} {checked : Checked} {c : Context}

/-- In a module that is accepted, core terms have types and constructors are found. -/
theorem lowerable_of_module_eq_ok (hi : ∀ x ∈ imports, Compiled x)
    (hm : module m imports = .ok checked) (hk : KeepsConstructors m imports)
    (hcases : ∀ s ts t l, .caseOf s (.mk [] ts t) l ∉ exprsOf (Bind.nodesOf checked.binds))
    (hown : ∀ n e, checked.globals.entity? n = some e → c.entity? n = some e)
    (hl : c.FindsLists) : Lowerable c (Bind.nodesOf checked.binds) := by
  let e := elaborate m imports
  let K (k : DataCon) : Prop := ∃ d, checked.globals.entity? k.name = some (.dataCon d)
  let x : Finish := (e.ending c).finish Ty.Refines K
  obtain ⟨hno, hbinds⟩ := of_module_eq_ok hm
  have hclosed : x.Closed :=
    Ending.finish_closed Core.functional_refines (fun _ => hl.scheme_cons) (fun _ => hl.scheme_nil)
      fun h ts ds l t _ hw => Ending.lowersAt_refines hw
  have hknows : x.Knows (declared m imports).2.globals := by
    intro n d hd
    obtain ⟨hdeclared, -, -⟩ := sound_declared (m := m) fun x hx => (hi x hx).wellFormed
    obtain ⟨hname, -⟩ := hdeclared.globals.of_entity? hd
    obtain rfl : n = d.name := hname
    exact ⟨d, entity?_of_constructor hi hm hk hd⟩
  obtain ⟨hruns, hnoted⟩ := (Finish.yields_binds (Finish.bindRule_noted hclosed) hclosed
    (H := True) hknows (m := m) nofun nofun).2 _ (before_ending hno c _ K) trivial
  have haccounts : ∀ n ∈ Bind.nodesOf e.binds, x.Accounts n := by
    intro n hn
    obtain ⟨b, hb, hn⟩ := Typed.mem_nodesOf_binds.1 hn
    exact hnoted b hb n hn
  have hnodes : Bind.nodesOf checked.binds = (Bind.nodesOf e.binds).map e.answers.node := by
    rw [hbinds]
    exact Typed.nodes_binds _ _
  constructor
  · intro y hy
    have hfalls : ∀ z, e.answers.expr z = y → (e.ending c).Falls Ty.Refines z := by
      rintro z rfl s ts t l hs
      refine absurd (Typed.mem_exprsOf.2 (Typed.closed_binds _ _ hy ?_)) (hcases (e.answers.expr s)
        (ts.map e.answers.ty) (e.answers.ty t) l)
      rw [Typed.nodes_expr]
      exact List.mem_map_of_mem hs
    rw [hnodes, List.mem_map] at hy
    obtain ⟨n, hn, hy⟩ := hy
    cases n with
    | expr z =>
      obtain rfl := Typed.Node.expr.inj hy
      rcases haccounts _ hn with ⟨t, ht⟩ | ⟨h, rfl⟩
      · have hholds := hruns.noted (fun _ h => absurd h List.not_mem_nil) _ ht
        intro n r hr
        obtain ⟨u, hu, -⟩ := hholds (hfalls z rfl) n r hr
        exact ⟨u, hu⟩
      · intro n r hr
        cases hr
        cases h with
        | var | con => exact ⟨_, rfl⟩
    | _ => cases hy
  · intro k ts ps t l hp
    rw [hnodes, List.mem_map] at hp
    obtain ⟨n, hn, hp⟩ := hp
    cases n with
    | pat p =>
      have hp := Typed.Node.pat.inj hp
      cases p with
      | con k' _ _ _ _ =>
        obtain rfl := (Typed.Pat.con.inj hp).1
        obtain ⟨_, rfl, hcon⟩ := haccounts _ hn
        obtain ⟨d, hd⟩ := hcon.known
        exact ⟨d, hown _ _ hd⟩
      | _ => cases hp
    | _ => cases hp

section

variable {w : Int} {file : Option String} {source : String} (hi : ∀ x ∈ imports, Read x)
  (hread : Surface.parseModule w file source = .ok m) (hm : module m imports = .ok checked)
  (hown : ∀ n e, checked.globals.entity? n = some e → c.entity? n = some e) (hl : c.FindsLists)
include hi hread hm hown hl

/-- A module that was read has no case without alternatives, and no binding that is named like a
constructor. -/
theorem lowerable_of_read : Lowerable c (Bind.nodesOf checked.binds) := by
  have hcompiled : ∀ x ∈ imports, Compiled x := fun x hx => (hi x hx).compiled
  refine lowerable_of_module_eq_ok hcompiled hm (keepsConstructors_of_read hi hread hm)
    (fun s ts t l hs => ?_) hown hl
  have hgroup : .group (.mk [] ts t) ∈ Bind.nodesOf checked.binds :=
    Typed.closed_binds _ _ (Typed.mem_exprsOf.1 hs)
      (by simp [Typed.Expr.nodes, Typed.MatchGroup.nodes])
  exact rows_ne_nil_of_read hcompiled hread hm _ hgroup rfl

/-- In a module that was read from a text and accepted, as was all that it imports, lowering an
expression fails for unsolved constraints only. -/
theorem lowerExpr_error_iff_of_read : ∀ e ∈ exprsOf (Bind.nodesOf checked.binds),
    ((∃ err, Core.lowerExpr c e = .error err) ↔
      ∃ y ∈ exprsOf e.nodes, Typed.Hole.allComplete y.dicts = false) ∧
    ∀ err, Core.lowerExpr c e = .error err → ∃ p, err = .unsolved p := by
  intro e he
  have hsub := Typed.closed_binds _ _ (Typed.mem_exprsOf.1 he)
  exact Core.lowerExpr_error_iff hl ((lowerable_of_read hi hread hm hown hl).mono hsub)

end

/-- Lowering an expression of a module that is accepted fails if and only if evidence at an
occurrence in it is incomplete, and then for an unsolved constraint. A module that was read has no
case without alternatives (`rows_ne_nil_of_read`), and no binding that is named like a constructor
(`keepsConstructors_of_read`). -/
theorem lowerExpr_fails_iff (hi : ∀ x ∈ imports, Compiled x)
    (hm : module m imports = .ok checked) (hk : KeepsConstructors m imports)
    (hcases : ∀ s ts t l, .caseOf s (.mk [] ts t) l ∉ exprsOf (Bind.nodesOf checked.binds))
    (hown : ∀ n e, checked.globals.entity? n = some e → c.entity? n = some e)
    (hl : c.FindsLists) :
    ∀ e ∈ exprsOf (Bind.nodesOf checked.binds),
      ((∃ err, Core.lowerExpr c e = .error err) ↔
        ∃ y ∈ exprsOf e.nodes, Typed.Hole.allComplete y.dicts = false) ∧
      ∀ err, Core.lowerExpr c e = .error err → ∃ p, err = .unsolved p := by
  intro e he
  have hsub := Typed.closed_binds _ _ (Typed.mem_exprsOf.1 he)
  have hlow := lowerable_of_module_eq_ok hi hm hk hcases hown hl
  exact Core.lowerExpr_error_iff hl (hlow.mono hsub)

/-- What lowering knows of a module that finds the constructors of lists. -/
def Elaboration.listContext (e : Elaboration) : Context :=
  { e.context with
    entity? n := e.declared.globals.entity? n <|> Declare.listEntities.find? (·.name == n) }

theorem Elaboration.entity?_listContext {e : Elaboration} {n : Name} {x : Entity}
    (h : e.declared.globals.entity? n = some x) : e.listContext.entity? n = some x := by
  simp only [listContext, h]
  rfl

theorem globals_run (m : Surface.Module) (imports : List Exports) :
    (run m imports).checked.globals = (elaborate m imports).declared.globals := rfl

theorem Elaboration.findsLists_listContext {e : Elaboration}
    (hnil : e.declared.globals.entity? Builtin.nilCon = none)
    (hcons : e.declared.globals.entity? Builtin.consCon = none) : e.listContext.FindsLists where
  nil := by
    simp only [listContext, hnil]
    exact ⟨_, rfl, rfl⟩
  cons := by
    simp only [listContext, hcons]
    exact ⟨_, rfl, rfl⟩

/-- The constraint of `y` in `f x = let { y = s (x 1) } in x 1` is unsolved: there is no core term
for `s`, and none for `f`. -/
theorem lowerExpr_fails_of_classModule :
    let arg : Surface.Expr := .app (.var "x" .unknown) (.lit (.int 1) .unknown) .unknown
    let m := classModule [.bind (function "f" "x" (.letIn [constrained arg] arg .unknown))]
    let checked := (run m []).checked
    let c := (elaborate m []).listContext
    module m [] = .ok checked ∧ KeepsConstructors m [] ∧ c.FindsLists ∧
    (∀ n e, checked.globals.entity? n = some e → c.entity? n = some e) ∧
    (∀ s ts t l, .caseOf s (.mk [] ts t) l ∉ exprsOf (Bind.nodesOf checked.binds)) ∧
    ∀ e ∈ exprsOf (Bind.nodesOf checked.binds),
      ((∃ err, Core.lowerExpr c e = .error err) ↔
        ∃ y ∈ exprsOf e.nodes, Typed.Hole.allComplete y.dicts = false) ∧
      ∀ err, Core.lowerExpr c e = .error err → ∃ p, err = .unsolved p := by
  intro arg m checked c
  have hm : module m [] = .ok checked := module_eq_ok (by decide +kernel)
  have hk : KeepsConstructors m [] := by
    rintro b - y - ⟨d, hd⟩
    cases hd
  have hl : c.FindsLists :=
    Elaboration.findsLists_listContext (Option.isNone_iff_eq_none.1 (by decide +kernel))
      (Option.isNone_iff_eq_none.1 (by decide +kernel))
  have hown : ∀ n e, checked.globals.entity? n = some e → c.entity? n = some e := by
    rw [globals_run]
    exact fun n e => Elaboration.entity?_listContext
  have hcases : ∀ s ts t l,
      .caseOf s (.mk [] ts t) l ∉ exprsOf (Bind.nodesOf checked.binds) := by
    intro s ts t l h
    let caseOf : Typed.Expr := .caseOf (.lit (.int 1) .unknown) (.mk [] [] (.var "a")) .unknown
    have hnone : ∀ e ∈ exprsOf (Bind.nodesOf checked.binds), e.ctorIdx ≠ caseOf.ctorIdx := by
      decide +kernel
    exact hnone _ h rfl
  exact ⟨hm, hk, hl, hown, hcases, lowerExpr_fails_iff (by simp) hm hk hcases hown hl⟩

end Check

end TypeLens
