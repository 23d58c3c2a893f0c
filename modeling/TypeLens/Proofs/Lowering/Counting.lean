import TypeLens.Proofs.Lowering.Types

/-!
The binders that lowering makes up are numbered in the order in which they are made.
-/

namespace TypeLens.Core

/-- The number of binders that were made up does not fall. -/
def Counts {α : Type} (act : LowerM α) : Prop := ∀ n r, act.run n = .ok r → n ≤ r.2

namespace Counts

variable {α β : Type} {act : LowerM α} {f : α → LowerM β}

theorem pure (a : α) : Counts (Pure.pure a) := by
  intro n r h
  cases h
  exact Nat.le_refl _

theorem bind (h : Counts act) (hf : ∀ a, Counts (f a)) : Counts (act >>= f) := by
  intro n r hr
  obtain ⟨x, hx, hr⟩ := run_bind_eq_ok.1 hr
  exact Nat.le_trans (h n x hx) (hf x.1 x.2 r hr)

theorem map (h : Counts act) (g : α → β) : Counts (act >>= fun a => Pure.pure (g a)) :=
  h.bind fun a => .pure (g a)

theorem lift (x : Except LowerError α) : Counts (liftM x : LowerM α) := by
  intro n r h
  cases x with
  | error e => cases h
  | ok a => cases h; exact Nat.le_refl _

theorem throw (e : LowerError) : Counts (MonadExcept.throw e : LowerM α) := by
  intro n r h
  cases h

end Counts

variable {c : Context}

theorem counts_freshBinder (t : Ty) : Counts (Lower.freshBinder c t) := by
  intro n r h
  cases h
  exact Nat.le_succ n

theorem counts_freshBinders (ts : List Ty) : Counts (Lower.freshBinders c ts) := by
  induction ts with
  | nil => exact .pure _
  | cons t ts ih => exact (counts_freshBinder t).bind fun _ => ih.map _

theorem counts_typeOf (t : Term) : Counts (Lower.typeOf t) := by
  unfold Lower.typeOf
  split
  · exact .pure _
  · exact .throw _

theorem counts_dataCon (k : Name) : Counts (Lower.dataCon c k) := by
  unfold Lower.dataCon
  split
  · exact .pure _
  · exact .throw _

theorem counts_conVar (k : Name) (ts : List Ty) : Counts (Lower.conVar c k ts) :=
  (counts_dataCon k).map _

mutual

theorem counts_matchPat (b : Binder) (success failure : Term) : ∀ p : Typed.Pat,
    Counts (Lower.matchPat c b success failure p)
  | .wild _ _ => by
    unfold Lower.matchPat
    exact .pure _
  | .par p _ => by
    unfold Lower.matchPat
    exact counts_matchPat b success failure p
  | .var i _ => by
    unfold Lower.matchPat
    exact .pure _
  | .lit v _ => by
    unfold Lower.matchPat
    exact (counts_freshBinder _).bind fun _ => (counts_typeOf _).map _
  | .con k ts ps t _ => by
    unfold Lower.matchPat
    refine (counts_dataCon k).bind fun d => (counts_freshBinders _).bind fun fields => ?_
    refine (counts_matchPats success failure fields ps).bind fun _ => ?_
    exact (counts_freshBinder t).bind fun _ => (counts_typeOf _).map _

theorem counts_matchPats (success failure : Term) (bs : List Binder) : ∀ ps : List Typed.Pat,
    Counts (Lower.matchPats c success failure bs ps)
  | [] => by
    cases bs <;>
    · unfold Lower.matchPats
      exact .pure _
  | p :: ps => by
    cases bs with
    | nil =>
      unfold Lower.matchPats
      exact .pure _
    | cons b bs =>
      unfold Lower.matchPats
      exact (counts_matchPats success failure bs ps).bind fun inner =>
        counts_matchPat b inner failure p

end

theorem counts_selections (b : Binder) (p : Typed.Pat) (is : List Typed.Ident) :
    Counts (Lower.selections c b p is) := by
  induction is with
  | nil =>
    unfold Lower.selections
    exact .pure _
  | cons i is ih =>
    unfold Lower.selections
    exact (counts_matchPat b _ _ p).bind fun _ => ih.map _

mutual

theorem counts_expr : ∀ e : Typed.Expr, Counts (Lower.expr c e)
  | .head h _ => by
    unfold Lower.expr
    exact .pure _
  | .inst h ts ds _ => by
    unfold Lower.expr
    exact (Counts.lift _).map _
  | .lit v _ => by
    unfold Lower.expr
    exact .pure _
  | .app f a _ => by
    unfold Lower.expr
    exact (counts_expr f).bind fun _ => (counts_expr a).map _
  | .opApp x op y _ => by
    unfold Lower.expr
    exact (counts_expr op).bind fun _ => (counts_expr x).bind fun _ => (counts_expr y).map _
  | .par e _ => by
    unfold Lower.expr
    exact counts_expr e
  | .list es t _ => by
    unfold Lower.expr
    exact (counts_conVar _ _).bind fun nil => counts_consAll t nil es
  | .ifThenElse e y n _ => by
    unfold Lower.expr
    exact (counts_expr y).bind fun _ => (counts_expr n).bind fun _ => (counts_expr e).bind fun _ =>
      (counts_freshBinder _).bind fun _ => (counts_typeOf _).map _
  | .lambda g _ => by
    unfold Lower.expr
    exact counts_lambda g
  | .caseOf e (.mk ms ts t) _ => by
    unfold Lower.expr
    exact (counts_freshBinder _).bind fun b => (counts_rows [b] _ ms).bind fun _ =>
      (counts_expr e).map _
  | .letIn bs e _ => by
    unfold Lower.expr
    exact (counts_expr e).bind fun e' => counts_letBinds e' bs

theorem counts_consAll (t : Ty) (nil : Term) : ∀ es : List Typed.Expr,
    Counts (Lower.consAll c t nil (Lower.exprs c es))
  | [] => by
    unfold Lower.exprs Lower.consAll
    exact .pure _
  | e :: es => by
    unfold Lower.exprs Lower.consAll
    exact (counts_consAll t nil es).bind fun _ => (counts_conVar _ _).bind fun _ =>
      (counts_expr e).map _

theorem counts_lambda : ∀ g : Typed.MatchGroup, Counts (Lower.lambda c g)
  | .mk ms ts t => by
    unfold Lower.lambda
    exact (counts_freshBinders _).bind fun bs => (counts_rows bs _ ms).map _

theorem counts_rows (bs : List Binder) (failure : Term) : ∀ ms : List Typed.Match,
    Counts (Lower.rows c bs failure ms)
  | [] => by
    unfold Lower.rows
    exact .pure _
  | .mk ps e _ :: ms => by
    unfold Lower.rows
    exact (counts_rows bs failure ms).bind fun next => (counts_expr e).bind fun success =>
      counts_matchPats success next bs ps

theorem counts_letBinds (body : Term) : ∀ bs : List Typed.Bind, Counts (Lower.letBinds c body bs)
  | [] => by
    unfold Lower.letBinds
    exact .pure _
  | b :: bs => by
    unfold Lower.letBinds
    exact (counts_letBinds body bs).bind fun _ => (counts_bind b).map _

theorem counts_bind : ∀ b : Typed.Bind, Counts (Lower.bind c b)
  | .fn i g _ => by
    unfold Lower.bind
    exact (counts_lambda g).map _
  | .pat p e is _ => by
    unfold Lower.bind
    exact (counts_freshBinder _).bind fun b => (counts_expr e).bind fun _ =>
      (counts_selections b p is).map _
  | .abs tvs ds xs bs _ => by
    unfold Lower.bind
    exact (counts_binds bs).map _

theorem counts_binds : ∀ bs : List Typed.Bind, Counts (Lower.binds c bs)
  | [] => by
    unfold Lower.binds
    exact .pure _
  | b :: bs => by
    unfold Lower.binds
    exact (counts_bind b).bind fun _ => (counts_binds bs).map _

end

/-- The name of a binder that was made up. -/
def madeUp (c : Context) (k : Nat) : Name := ⟨"ds" ++ toString k, c.module, .value, -(k : Int)⟩

theorem madeUp_injective {k l : Nat} (h : madeUp c k = madeUp c l) : k = l :=
  Int.ofNat_inj.1 (Int.neg_inj.1 (congrArg Name.unique h))

/-- The names of the binders that are made up while their number goes from `n` to `m`. -/
def madeUpNames (c : Context) (n m : Nat) : List Name :=
  (List.range' (n + 1) (m - n)).map (madeUp c)

theorem mem_madeUpNames {n m : Nat} {x : Name} :
    x ∈ madeUpNames c n m ↔ ∃ k, n < k ∧ k ≤ m ∧ madeUp c k = x := by
  simp only [madeUpNames, List.mem_map, List.mem_range'_1, and_assoc]
  refine exists_congr fun k => ?_
  constructor <;> rintro ⟨h, h', rfl⟩ <;> exact ⟨by omega, by omega, rfl⟩

theorem length_madeUpNames (n m : Nat) : (madeUpNames c n m).length = m - n := by
  rw [madeUpNames, List.length_map, List.length_range']

theorem run_freshBinder {t : Ty} {n : Nat} {r : Binder × Nat}
    (h : (Lower.freshBinder c t).run n = .ok r) : r = (⟨madeUp c (n + 1), t⟩, n + 1) := by
  cases h
  rfl

theorem names_freshBinders {ts : List Ty} {n : Nat} {r : List Binder × Nat}
    (h : (Lower.freshBinders c ts).run n = .ok r) :
    r.1.map (·.name) = madeUpNames c n r.2 ∧ r.2 = n + ts.length := by
  induction ts generalizing n r with
  | nil =>
    unfold Lower.freshBinders at h
    cases h
    simp [madeUpNames]
  | cons t ts ih =>
    unfold Lower.freshBinders at h
    obtain ⟨b, hb, h⟩ := run_bind_eq_ok.1 h
    obtain ⟨bs, hbs, h⟩ := run_bind_eq_ok.1 h
    obtain rfl := run_freshBinder hb
    obtain ⟨hnames, hcount⟩ := ih hbs
    cases h
    simp only at hcount hnames
    have hlen : n + 1 + ts.length - n = ts.length + 1 := by omega
    have hrest : n + 1 + ts.length - (n + 1) = ts.length := by omega
    refine ⟨?_, by rw [hcount, List.length_cons]; omega⟩
    rw [List.map_cons, hnames, hcount, madeUpNames, madeUpNames, hlen, hrest, List.range'_succ,
      List.map_cons]

end TypeLens.Core
