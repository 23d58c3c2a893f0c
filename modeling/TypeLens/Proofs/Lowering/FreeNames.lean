import TypeLens.Proofs.Lowering.Types
import TypeLens.Proofs.Typed.Reading

/-!
Free names of core terms. Those of a term that is lowered are the ones that the tree takes from its
surroundings when the bindings of groups are read in order.
-/

namespace TypeLens

namespace Core

def Pair.names (ps : List Pair) : List Name := ps.map (·.binder.name)

mutual

/-- The names in a term that are not in the scope of a binder of that name. The binder of a case is
not counted as one. -/
def Term.free : Term → List Name
  | .var n _ => [n]
  | .lit _ => []
  | .app f x => f.free ++ x.free
  | .tyApp f _ => f.free
  | .lam b t => t.free.filter (· ≠ b.name)
  | .tyLam _ t => t.free
  | .letIn b t => b.free ++ t.free.filter (· ∉ Pair.names b.pairs)
  | .caseOf s _ _ as => s.free ++ Alt.freeOf as
  | .blank => []

def Alt.freeOf : List Alt → List Name
  | [] => []
  | .mk _ bs t :: as => t.free.filter (· ∉ bs.map (·.name)) ++ Alt.freeOf as

def Bind.free : Bind → List Name
  | .mk ps recursive =>
    if recursive then (Pair.freeOf ps).filter (· ∉ Pair.names ps) else Pair.freeOf ps

def Pair.freeOf : List Pair → List Name
  | [] => []
  | .mk _ t :: ps => t.free ++ Pair.freeOf ps

end

@[simp] theorem free_single (b : Binder) (t : Term) : (Bind.single b t).free = t.free := by
  simp [Bind.single, Bind.free, Pair.freeOf]

@[simp] theorem free_recursive (b : Binder) (t : Term) :
    (Bind.mk [.mk b t] true).free = t.free.filter (· ≠ b.name) := by
  simp [Bind.free, Pair.freeOf, Pair.names, Pair.binder]

@[simp] theorem names_single (b : Binder) (t : Term) :
    Pair.names (Bind.single b t).pairs = [b.name] := rfl

theorem free_foldl_app (args : List Term) (f : Term) :
    (args.foldl .app f).free = f.free ++ args.flatMap Term.free := by
  induction args generalizing f with
  | nil => rw [List.flatMap_nil, List.append_nil]; rfl
  | cons x args ih => rw [List.foldl_cons, ih, Term.free, List.flatMap_cons, List.append_assoc]

theorem free_atTypes (t : Term) (ts : List Ty) : (Lower.atTypes t ts).free = t.free := by
  unfold Lower.atTypes
  split
  · rfl
  · rw [Term.free]

theorem mem_free_lams {x : Name} {bs : List Binder} {t : Term} :
    x ∈ (Lower.lams bs t).free ↔ x ∈ t.free ∧ x ∉ bs.map (·.name) := by
  induction bs with
  | nil => simp [Lower.lams]
  | cons b bs ih =>
    rw [Lower.lams, List.foldr_cons, Term.free, List.mem_filter, ← Lower.lams, ih]
    simp only [List.map_cons, List.mem_cons, not_or, decide_eq_true_eq, ne_eq, and_assoc,
      and_comm (a := ¬ x = b.name)]

theorem lets_append (bs bs' : List Bind) (t : Term) :
    Lower.lets (bs ++ bs') t = Lower.lets bs (Lower.lets bs' t) := List.foldr_append

theorem mem_free_letIn {x : Name} {b : Bind} {t : Term} :
    x ∈ (Term.letIn b t).free ↔ x ∈ b.free ∨ x ∈ t.free ∧ x ∉ Pair.names b.pairs := by
  rw [Term.free, List.mem_append, List.mem_filter, decide_eq_true_eq]

/-- The local names that are free in a term are among `ns` and `ds`. -/
def Frees (t ns ds : List Name) : Prop := ∀ x ∈ t, x.IsLocal → x ∈ ns ∨ x ∈ ds

namespace Frees

variable {t t' ns ns' ds : List Name}

theorem top (h : ∀ x ∈ t, ¬ x.IsLocal) : Frees t [] ds := fun x hx hl => absurd hl (h x hx)

theorem refl : Frees t t [] := fun _ hx _ => .inl hx

theorem append (h : Frees t ns ds) (h' : Frees t' ns' ds) : Frees (t ++ t') (ns ++ ns') ds := by
  intro x hx hl
  rw [List.mem_append]
  rcases List.mem_append.1 hx with hx | hx
  · exact (h x hx hl).imp_left .inl
  · exact (h' x hx hl).imp_left .inr

theorem mono (h : Frees t ns ds) (ht : t' ⊆ t) (hn : ns ⊆ ns') : Frees t' ns' ds :=
  fun x hx hl => (h x (ht hx) hl).imp_left (hn ·)

theorem filter (h : Frees t ns ds) (p : Name → Bool) : Frees (t.filter p) (ns.filter p) ds := by
  intro x hx hl
  obtain ⟨hx, hp⟩ := List.mem_filter.1 hx
  exact (h x hx hl).imp_left fun hx => List.mem_filter.2 ⟨hx, hp⟩

/-- Binders that lowering made up are in scope. -/
theorem bound (h : Frees t ns ds) : Frees (t.filter (· ∉ ds)) ns [] := by
  intro x hx hl
  rw [List.mem_filter, decide_eq_true_eq] at hx
  exact .inl ((h x hx.1 hl).resolve_right hx.2)

theorem mem (h : Frees t ns []) {x : Name} (hx : x ∈ t) (hl : x.IsLocal) : x ∈ ns :=
  (h x hx hl).resolve_right List.not_mem_nil

end Frees

theorem free_head (h : Typed.Head) : (Lower.head h).free = [h.name] := by
  cases h with
  | var | con => rfl

variable {c : Context}

theorem length_freshBinders {ts : List Ty} {n : Nat} {r : List Binder × Nat}
    (h : (Lower.freshBinders c ts).run n = .ok r) : r.1.length = ts.length := by
  rw [← run_freshBinders h, List.length_map]

-- Evidence

mutual

theorem free_evidence : ∀ {e : Typed.Evidence} {t : Term},
    Lower.evidence e = .ok t → t.free = e.names
  | .byParam d, t, h => by
    unfold Lower.evidence at h
    cases h
    rfl
  | .byInstance i ts hs, t, h => by
    unfold Lower.evidence at h
    cases hargs : Lower.holes hs with
    | error e => simp [hargs, bind, Except.bind] at h
    | ok args =>
      obtain rfl : args.foldl .app (Lower.atTypes (.var i.name i.dictTy) ts) = t := by
        simpa [hargs, bind, Except.bind, pure, Except.pure] using h
      rw [free_foldl_app, free_atTypes, free_holes hargs, Typed.Evidence.names, Term.free]
      rfl

theorem free_hole : ∀ {h : Typed.Hole} {t : Term}, Lower.hole h = .ok t → t.free = h.names
  | .unsolved _ _, _, h => by
    unfold Lower.hole at h
    cases h
  | .solved _ e, t, h => by
    unfold Lower.hole at h
    rw [Typed.Hole.names]
    exact free_evidence h

theorem free_holes : ∀ {hs : List Typed.Hole} {ts : List Term},
    Lower.holes hs = .ok ts → ts.flatMap Term.free = Typed.Hole.namesOf hs
  | [], ts, h => by
    unfold Lower.holes at h
    cases h
    rfl
  | d :: ds, ts, h => by
    unfold Lower.holes at h
    cases hd : Lower.hole d with
    | error e => simp [hd, bind, Except.bind] at h
    | ok t =>
      cases hds : Lower.holes ds with
      | error e => simp [hd, hds, bind, Except.bind] at h
      | ok us =>
        obtain rfl : t :: us = ts := by
          simpa [hd, hds, bind, Except.bind, pure, Except.pure] using h
        rw [List.flatMap_cons, free_hole hd, free_holes hds, Typed.Hole.namesOf]

end

-- Trees that lowering takes apart as a whole

/-- No pattern or name in a node is left out when it is lowered. -/
def NodeFits (c : Context) : Typed.Node → Prop
  | .pat (.con k _ ps _ _) => ∀ d, c.entity? k = some (.dataCon d) → ps.length ≤ d.argTypes.length
  | .group (.mk ms ts _) => ∀ m ∈ ms, m.pats.length ≤ ts.length
  | .expr (.caseOf _ g _) => ∀ m ∈ g.rows, m.pats.length ≤ 1
  | .bind (.pat p _ is _) => ∀ i ∈ is, i.name ∈ p.names
  | .bind (.abs _ _ xs bs _) => ∀ x ∈ xs, x.mono.name ∈ Typed.Bind.namesOf bs
  | _ => True

/-- A tree that fits what lowering knows. -/
def Fits (c : Context) (ns : List Typed.Node) : Prop := ∀ n ∈ ns, NodeFits c n

theorem fits_nil : Fits c [] := fun _ h => absurd h List.not_mem_nil

theorem fits_append {ns ms : List Typed.Node} : Fits c (ns ++ ms) ↔ Fits c ns ∧ Fits c ms :=
  List.forall_mem_append

theorem fits_cons {n : Typed.Node} {ns : List Typed.Node} :
    Fits c (n :: ns) ↔ NodeFits c n ∧ Fits c ns := List.forall_mem_cons

-- Patterns

/-- The free names of a match: those of its success that the patterns do not bind, and those of its
failure if there is a test. -/
def MatchFrees (t success failure names ds : List Name) (test : Bool) : Prop :=
  ∀ x ∈ t, x.IsLocal → x ∈ success ∧ x ∉ names ∨ test ∧ x ∈ failure ∨ x ∈ ds

/-- A match within another one. -/
theorem MatchFrees.comp {t inner success failure names names' : List Name} {b : Name}
    {ds : List Name} {test test' : Bool} (h : MatchFrees t inner failure names [b] test)
    (h' : MatchFrees inner success failure names' ds test') :
    MatchFrees t success failure (names ++ names') (b :: ds) (test || test') := by
  intro x hx hl
  simp only [List.mem_append, List.mem_cons, not_or, Bool.or_eq_true]
  rcases h x hx hl with ⟨hx, hn⟩ | ⟨ht, hx⟩ | hx
  · rcases h' x hx hl with ⟨hx, hn'⟩ | ⟨ht, hx⟩ | hx
    · exact .inl ⟨hx, hn, hn'⟩
    · exact .inr (.inl ⟨.inr ht, hx⟩)
    · exact .inr (.inr (.inr hx))
  · exact .inr (.inl ⟨.inl ht, hx⟩)
  · exact .inr (.inr (.inl (List.mem_singleton.1 hx)))

/-- An equation with what comes after it. -/
theorem MatchFrees.frees {t success failure names ns ns' ds : List Name} {test : Bool}
    (h : MatchFrees t success failure names ds test) (hs : Frees success ns [])
    (hf : Frees failure ns' ds) :
    Frees t (ns.filter (· ∉ names) ++ if test then ns' else []) ds := by
  intro x hx hl
  rw [List.mem_append, List.mem_filter, decide_eq_true_eq]
  rcases h x hx hl with ⟨hx, hn⟩ | ⟨ht, hx⟩ | hx
  · exact .inl (.inl ⟨hs.mem hx hl, hn⟩)
  · rw [if_pos ht]
    exact (hf x hx hl).imp_left .inr
  · exact .inr hx

mutual

theorem frees_matchPat {success failure : Term} {b : Binder} : ∀ {p : Typed.Pat}, Fits c p.nodes →
    ∀ {n : Nat} {r : Term × Nat}, (Lower.matchPat c b success failure p).run n = .ok r →
      MatchFrees r.1.free success.free failure.free p.names [b.name] p.refutable
  | .wild _ _, _, n, r, h => by
    unfold Lower.matchPat at h
    rw [run_pure_eq_ok h]
    exact fun x hx _ => .inl ⟨hx, List.not_mem_nil⟩
  | .par p _, hp, n, r, h => by
    unfold Lower.matchPat at h
    rw [Typed.Pat.nodes, fits_cons] at hp
    exact frees_matchPat hp.2 h
  | .var i _, _, n, r, h => by
    unfold Lower.matchPat at h
    rw [run_pure_eq_ok h, Typed.Pat.names]
    intro x hx _
    rw [mem_free_letIn, free_single] at hx
    exact hx.symm.imp_right .inr
  | .lit v _, _, n, r, h => by
    unfold Lower.matchPat at h
    obtain ⟨b', -, h⟩ := run_bind_eq_ok.1 h
    obtain ⟨u, -, h⟩ := run_bind_eq_ok.1 h
    rw [run_pure_eq_ok h]
    intro x hx _
    have hcase : x = b.name ∨ x ∈ success.free ∨ x ∈ failure.free := by
      simpa [Term.free, Alt.freeOf, Binder.ref] using hx
    rcases hcase with hx | hx | hx
    · exact .inr (.inr (List.mem_singleton.2 hx))
    · exact .inl ⟨hx, List.not_mem_nil⟩
    · exact .inr (.inl ⟨rfl, hx⟩)
  | .con k ts ps u l, hp, n, r, h => by
    unfold Lower.matchPat at h
    rw [Typed.Pat.nodes, fits_cons] at hp
    obtain ⟨d, hd, h⟩ := run_bind_eq_ok.1 h
    obtain ⟨fields, hfields, h⟩ := run_bind_eq_ok.1 h
    obtain ⟨inner, hinner, h⟩ := run_bind_eq_ok.1 h
    obtain ⟨b', -, h⟩ := run_bind_eq_ok.1 h
    obtain ⟨v, -, h⟩ := run_bind_eq_ok.1 h
    rw [run_pure_eq_ok h]
    have hlen : ps.length ≤ fields.1.length := by
      rw [length_freshBinders hfields, List.length_map]
      refine hp.1 d.1 ?_
      unfold Lower.dataCon at hd
      split at hd
      · next d' hd' => rw [hd', run_pure_eq_ok hd]
      · cases hd
    intro x hx hl
    have hcase : x = b.name ∨ (x ∈ inner.1.free ∧ x ∉ fields.1.map (·.name)) ∨
        x ∈ failure.free := by
      simpa [Term.free, Alt.freeOf, Binder.ref] using hx
    rcases hcase with hx | ⟨hx, hnot⟩ | hx
    · exact .inr (.inr (List.mem_singleton.2 hx))
    · rcases frees_matchPats hp.2 hlen hinner x hx hl with hx | ⟨-, hx⟩ | hx
      · exact .inl hx
      · exact .inr (.inl ⟨rfl, hx⟩)
      · exact absurd hx hnot
    · exact .inr (.inl ⟨rfl, hx⟩)

theorem frees_matchPats {success failure : Term} : ∀ {bs : List Binder} {ps : List Typed.Pat},
    Fits c (Typed.Pat.nodesOf ps) → ps.length ≤ bs.length → ∀ {n : Nat} {r : Term × Nat},
      (Lower.matchPats c success failure bs ps).run n = .ok r →
        MatchFrees r.1.free success.free failure.free (Typed.Pat.namesOf ps) (bs.map (·.name))
          (ps.any Typed.Pat.refutable)
  | bs, [], _, _, n, r, h => by
    have hr : r.1 = success := by
      cases bs <;>
      · unfold Lower.matchPats at h
        exact run_pure_eq_ok h
    rw [hr]
    exact fun x hx _ => .inl ⟨hx, List.not_mem_nil⟩
  | [], _ :: _, _, hlen, _, _, _ => absurd hlen (Nat.not_succ_le_zero _)
  | b :: bs, p :: ps, hps, hlen, n, r, h => by
    unfold Lower.matchPats at h
    rw [Typed.Pat.nodesOf] at hps
    obtain ⟨hp, hps⟩ := fits_append.1 hps
    obtain ⟨inner, hinner, h⟩ := run_bind_eq_ok.1 h
    exact (frees_matchPat hp h).comp (frees_matchPats hps (Nat.le_of_succ_le_succ hlen) hinner)

end

theorem frees_patError (t : Ty) : ∀ x ∈ (Lower.patError c t).free, ¬ x.IsLocal := by
  intro x hx
  simp only [Lower.patError, Term.free, List.mem_singleton] at hx
  subst hx
  exact fun h => h rfl

theorem frees_conVar {k : Name} (hk : ¬ k.IsLocal) {ts : List Ty} {n : Nat} {r : Term × Nat}
    (h : (Lower.conVar c k ts).run n = .ok r) : ∀ x ∈ r.1.free, ¬ x.IsLocal := by
  unfold Lower.conVar at h
  obtain ⟨d, -, h⟩ := run_bind_eq_ok.1 h
  rw [run_pure_eq_ok h]
  intro x hx
  simp only [Term.free, List.mem_singleton] at hx
  exact hx ▸ hk

/-- The definitions of the variables of a pattern refer to the value that is matched only. -/
theorem frees_selections {b : Binder} {p : Typed.Pat} (hp : Fits c p.nodes)
    {is : List Typed.Ident} (his : ∀ i ∈ is, i.name ∈ p.names) {n : Nat} {r : List Bind × Nat}
    (h : (Lower.selections c b p is).run n = .ok r) {t : Term} :
    ∀ x ∈ (Lower.lets r.1 t).free, x.IsLocal → x ∈ t.free ∧ x ∉ is.map (·.name) ∨ x = b.name := by
  intro x hx hl
  induction is generalizing n r with
  | nil =>
    unfold Lower.selections at h
    rw [run_pure_eq_ok h] at hx
    exact .inl ⟨hx, List.not_mem_nil⟩
  | cons i is ih =>
    unfold Lower.selections at h
    obtain ⟨e, he, h⟩ := run_bind_eq_ok.1 h
    obtain ⟨rest, hrest, h⟩ := run_bind_eq_ok.1 h
    obtain ⟨hi, his⟩ := List.forall_mem_cons.1 his
    rw [run_pure_eq_ok h, Lower.lets, List.foldr_cons, ← Lower.lets, mem_free_letIn, free_single,
      names_single, List.mem_singleton] at hx
    rw [List.map_cons, List.mem_cons, not_or]
    rcases hx with hx | ⟨hx, hne⟩
    · rcases frees_matchPat hp he x hx hl with ⟨hx, hn⟩ | ⟨-, hx⟩ | hx
      · rw [Term.free, List.mem_singleton] at hx
        exact absurd (hx ▸ hi) hn
      · exact absurd hl (frees_patError _ x hx)
      · exact .inr (List.mem_singleton.1 hx)
    · exact (ih his hrest hx).imp_left fun h => ⟨h.1, hne, h.2⟩

-- Exports

/-- The definition of an exported name takes what the bindings take in order, apart from the
dictionaries. -/
theorem frees_exportBind {tvs : List String} {ds : List Typed.DictVar} {bs : List Typed.Bind}
    {inner : List Bind} (h : ∀ {t : Term} {ns : List Name}, Frees t.free ns [] →
      Frees (Lower.lets inner t).free (Typed.Bind.scope .inOrder bs ns) [])
    {x : Typed.Export} (hx : x.mono.name ∈ Typed.Bind.namesOf bs) :
    Frees (Lower.exportBind tvs ds inner x).free
      ((Typed.Bind.scope .inOrder bs []).filter (· ∉ ds.map (·.name))) [] := by
  let mono : Term := .var x.mono.name x.mono.scheme.toTy
  have hinner : Frees (Lower.lets inner mono).free
      (Typed.Bind.scope .inOrder bs [x.mono.name]) [] := h .refl
  refine (hinner.filter (· ∉ ds.map (·.name))).mono (fun y hy => ?_) fun y hy => ?_
  · have hbody : (Lower.exportBind tvs ds inner x).free =
        (Lower.lams (ds.map fun d => ⟨d.name, d.pred.ty⟩) (Lower.lets inner mono)).free := by
      unfold Lower.exportBind
      dsimp only
      split
      · rw [free_single]
      · rw [free_single, Term.free]
    have hnames : (ds.map fun d => (⟨d.name, d.pred.ty⟩ : Binder)).map (·.name) =
        ds.map (·.name) := by rw [List.map_map]; rfl
    rw [hbody, mem_free_lams, hnames] at hy
    rwa [List.mem_filter, decide_eq_true_eq]
  · rw [List.mem_filter, Typed.mem_scope] at hy
    refine List.mem_filter.2 ⟨hy.1.resolve_right fun hmono => hmono.2 ?_, hy.2⟩
    exact List.mem_singleton.1 hmono.1 ▸ hx

theorem frees_lets_exports {ns ns' : List Name} {t : Term} (ht : Frees t.free ns [])
    {f : Typed.Export → Bind} {xs : List Typed.Export}
    (hnames : ∀ x, Pair.names (f x).pairs = [x.poly.name])
    (h : ∀ x ∈ xs, Frees (f x).free ns' []) :
    Frees (Lower.lets (xs.map f) t).free
      ((if xs.isEmpty then [] else ns') ++ ns.filter (· ∉ xs.map (·.poly.name))) [] := by
  induction xs with
  | nil => exact ht.mono (List.Subset.refl _) fun y hy => by simpa using hy
  | cons x xs ih =>
    obtain ⟨hx, hxs⟩ := List.forall_mem_cons.1 h
    intro y hy hl
    refine .inl ?_
    simp only [List.isEmpty_cons, Bool.false_eq_true, if_false, List.mem_append]
    rcases mem_free_letIn.1 hy with hy | ⟨hy, hne⟩
    · exact .inl (hx.mem hy hl)
    have hy := (ih hxs).mem hy hl
    rw [hnames, List.mem_singleton] at hne
    rw [List.mem_append, List.mem_filter, decide_eq_true_eq] at hy
    rcases hy with hy | ⟨hy, hnot⟩
    · refine .inl ?_
      split at hy
      · cases hy
      · exact hy
    · refine .inr (List.mem_filter.2 ⟨hy, decide_eq_true ?_⟩)
      rw [List.map_cons, List.mem_cons, not_or]
      exact ⟨hne, hnot⟩

-- Expressions and bindings

mutual

theorem frees_expr : ∀ {e : Typed.Expr}, Fits c e.nodes → ∀ {n : Nat} {r : Term × Nat},
    (Lower.expr c e).run n = .ok r → Frees r.1.free (e.free .inOrder) []
  | .head h _, _, n, r, hr => by
    unfold Lower.expr at hr
    rw [run_pure_eq_ok hr, free_head, Typed.Expr.free]
    exact .refl
  | .inst h ts ds _, _, n, r, hr => by
    unfold Lower.expr at hr
    obtain ⟨args, hargs, hr⟩ := run_bind_eq_ok.1 hr
    rw [run_pure_eq_ok hr, free_foldl_app, free_atTypes, free_head,
      free_holes (run_lift_eq_ok hargs), Typed.Expr.free]
    exact .refl
  | .lit v _, _, n, r, hr => by
    unfold Lower.expr at hr
    rw [run_pure_eq_ok hr, Typed.Expr.free]
    exact .refl
  | .app f a _, h, n, r, hr => by
    unfold Lower.expr at hr
    rw [Typed.Expr.nodes, fits_cons] at h
    obtain ⟨hf, ha⟩ := fits_append.1 h.2
    obtain ⟨f', hf', hr⟩ := run_bind_eq_ok.1 hr
    obtain ⟨a', ha', hr⟩ := run_bind_eq_ok.1 hr
    rw [run_pure_eq_ok hr, Typed.Expr.free]
    exact (frees_expr hf hf').append (frees_expr ha ha')
  | .opApp x op y _, h, n, r, hr => by
    unfold Lower.expr at hr
    rw [Typed.Expr.nodes, fits_cons] at h
    obtain ⟨hxop, hy⟩ := fits_append.1 h.2
    obtain ⟨hx, hop⟩ := fits_append.1 hxop
    obtain ⟨op', hop', hr⟩ := run_bind_eq_ok.1 hr
    obtain ⟨x', hx', hr⟩ := run_bind_eq_ok.1 hr
    obtain ⟨y', hy', hr⟩ := run_bind_eq_ok.1 hr
    rw [run_pure_eq_ok hr, Typed.Expr.free]
    refine (((frees_expr hop hop').append (frees_expr hx hx')).append (frees_expr hy hy')).mono
      (List.Subset.refl _) fun z => ?_
    simp only [List.mem_append, or_comm (a := z ∈ op.free .inOrder)]
    exact id
  | .par e _, h, n, r, hr => by
    unfold Lower.expr at hr
    rw [Typed.Expr.nodes, fits_cons] at h
    rw [Typed.Expr.free]
    exact frees_expr h.2 hr
  | .list es t _, h, n, r, hr => by
    unfold Lower.expr at hr
    rw [Typed.Expr.nodes, fits_cons] at h
    obtain ⟨nil, hnil, hr⟩ := run_bind_eq_ok.1 hr
    rw [Typed.Expr.free]
    exact frees_consAll h.2 (frees_conVar (fun h => h rfl) hnil) hr
  | .ifThenElse e y z _, h, n, r, hr => by
    unfold Lower.expr at hr
    rw [Typed.Expr.nodes, fits_cons] at h
    obtain ⟨hey, hz⟩ := fits_append.1 h.2
    obtain ⟨he, hy⟩ := fits_append.1 hey
    obtain ⟨y', hy', hr⟩ := run_bind_eq_ok.1 hr
    obtain ⟨z', hz', hr⟩ := run_bind_eq_ok.1 hr
    obtain ⟨e', he', hr⟩ := run_bind_eq_ok.1 hr
    obtain ⟨b, -, hr⟩ := run_bind_eq_ok.1 hr
    obtain ⟨t, -, hr⟩ := run_bind_eq_ok.1 hr
    rw [run_pure_eq_ok hr, Typed.Expr.free]
    refine (((frees_expr he he').append (frees_expr hy hy')).append (frees_expr hz hz')).mono
      (fun w => ?_) (List.Subset.refl _)
    simp [Term.free, Alt.freeOf, or_comm (a := w ∈ z'.1.free)]
  | .lambda g _, h, n, r, hr => by
    unfold Lower.expr at hr
    rw [Typed.Expr.nodes, fits_cons] at h
    rw [Typed.Expr.free]
    exact frees_lambda h.2 hr
  | .caseOf e (.mk ms ts t) l, h, n, r, hr => by
    unfold Lower.expr at hr
    rw [Typed.Expr.nodes, fits_cons] at h
    obtain ⟨he, hg⟩ := fits_append.1 h.2
    rw [Typed.MatchGroup.nodes, fits_cons] at hg
    obtain ⟨b, hb, hr⟩ := run_bind_eq_ok.1 hr
    obtain ⟨body, hbody, hr⟩ := run_bind_eq_ok.1 hr
    obtain ⟨e', he', hr⟩ := run_bind_eq_ok.1 hr
    have hlen : ∀ m ∈ ms, m.pats.length ≤ [b.1].length :=
      h.1
    have hrows := frees_rows hg.2 hlen (frees_patError t) hbody
    rw [run_pure_eq_ok hr, Typed.Expr.free, Typed.MatchGroup.free]
    refine ((frees_expr he he').append hrows.bound).mono (fun x => ?_) (List.Subset.refl _)
    rw [mem_free_letIn, free_single, names_single, List.mem_append, List.mem_filter,
      decide_eq_true_eq]
    exact id
  | .letIn bs e _, h, n, r, hr => by
    unfold Lower.expr at hr
    rw [Typed.Expr.nodes, fits_cons] at h
    obtain ⟨hbs, he⟩ := fits_append.1 h.2
    obtain ⟨e', he', hr⟩ := run_bind_eq_ok.1 hr
    rw [Typed.Expr.free]
    exact frees_letBinds hbs (frees_expr he he') hr

theorem frees_consAll : ∀ {es : List Typed.Expr}, Fits c (Typed.Expr.nodesOf es) →
    ∀ {t : Ty} {nil : Term}, (∀ x ∈ nil.free, ¬ x.IsLocal) → ∀ {n : Nat} {r : Term × Nat},
      (Lower.consAll c t nil (Lower.exprs c es)).run n = .ok r →
        Frees r.1.free (Typed.Expr.freeOf .inOrder es) []
  | [], _, _, _, hnil, n, r, hr => by
    unfold Lower.exprs Lower.consAll at hr
    rw [run_pure_eq_ok hr, Typed.Expr.freeOf]
    exact .top hnil
  | e :: es, h, _, _, hnil, n, r, hr => by
    unfold Lower.exprs Lower.consAll at hr
    rw [Typed.Expr.nodesOf] at h
    obtain ⟨he, hes⟩ := fits_append.1 h
    obtain ⟨tail, htail, hr⟩ := run_bind_eq_ok.1 hr
    obtain ⟨cons, hcons, hr⟩ := run_bind_eq_ok.1 hr
    obtain ⟨e', he', hr⟩ := run_bind_eq_ok.1 hr
    have hcon : Frees cons.1.free [] [] := .top (frees_conVar (fun h => h rfl) hcons)
    rw [run_pure_eq_ok hr, Typed.Expr.freeOf]
    exact (hcon.append (frees_expr he he')).append (frees_consAll hes hnil htail)

theorem frees_lambda : ∀ {g : Typed.MatchGroup}, Fits c g.nodes → ∀ {n : Nat} {r : Term × Nat},
    (Lower.lambda c g).run n = .ok r → Frees r.1.free (g.free .inOrder) []
  | .mk ms ts t, h, n, r, hr => by
    unfold Lower.lambda at hr
    rw [Typed.MatchGroup.nodes, fits_cons] at h
    obtain ⟨bs, hbs, hr⟩ := run_bind_eq_ok.1 hr
    obtain ⟨body, hbody, hr⟩ := run_bind_eq_ok.1 hr
    have hlen : ∀ m ∈ ms, m.pats.length ≤ bs.1.length := by
      rw [length_freshBinders hbs]
      exact h.1
    have hrows := frees_rows h.2 hlen (frees_patError t) hbody
    rw [run_pure_eq_ok hr, Typed.MatchGroup.free]
    refine hrows.bound.mono (fun x => ?_) (List.Subset.refl _)
    rw [mem_free_lams, List.mem_filter, decide_eq_true_eq]
    exact id

theorem frees_rows : ∀ {ms : List Typed.Match}, Fits c (Typed.Match.nodesOf ms) →
    ∀ {bs : List Binder}, (∀ m ∈ ms, m.pats.length ≤ bs.length) →
      ∀ {failure : Term}, (∀ x ∈ failure.free, ¬ x.IsLocal) → ∀ {n : Nat} {r : Term × Nat},
        (Lower.rows c bs failure ms).run n = .ok r →
          Frees r.1.free (Typed.Match.freeOf .inOrder ms) (bs.map (·.name))
  | [], _, _, _, _, hf, n, r, hr => by
    unfold Lower.rows at hr
    rw [run_pure_eq_ok hr, Typed.Match.freeOf]
    exact .top hf
  | .mk ps e _ :: ms, h, bs, hlen, _, hf, n, r, hr => by
    unfold Lower.rows at hr
    rw [Typed.Match.nodesOf, fits_cons] at h
    obtain ⟨hpse, hms⟩ := fits_append.1 h.2
    obtain ⟨hps, he⟩ := fits_append.1 hpse
    obtain ⟨hfirst, hrest⟩ := List.forall_mem_cons.1 hlen
    obtain ⟨next, hnext, hr⟩ := run_bind_eq_ok.1 hr
    obtain ⟨success, hsuccess, hr⟩ := run_bind_eq_ok.1 hr
    rw [Typed.Match.freeOf]
    exact (frees_matchPats hps hfirst hr).frees (frees_expr he hsuccess)
      (frees_rows hms hrest hf hnext)

theorem frees_letBinds : ∀ {bs : List Typed.Bind}, Fits c (Typed.Bind.nodesOf bs) →
    ∀ {body : Term} {ns : List Name}, Frees body.free ns [] → ∀ {n : Nat} {r : Term × Nat},
      (Lower.letBinds c body bs).run n = .ok r →
        Frees r.1.free (Typed.Bind.scope .inOrder bs ns) []
  | [], _, _, _, hbody, n, r, hr => by
    unfold Lower.letBinds at hr
    rw [run_pure_eq_ok hr, Typed.Bind.scope]
    exact hbody
  | b :: bs, h, _, _, hbody, n, r, hr => by
    unfold Lower.letBinds at hr
    rw [Typed.Bind.nodesOf] at h
    obtain ⟨hb, hbs⟩ := fits_append.1 h
    obtain ⟨inner, hinner, hr⟩ := run_bind_eq_ok.1 hr
    obtain ⟨b', hb', hr⟩ := run_bind_eq_ok.1 hr
    rw [run_pure_eq_ok hr, Typed.Bind.scope]
    exact frees_bind hb hb' (frees_letBinds hbs hbody hinner)

theorem frees_bind : ∀ {b : Typed.Bind}, Fits c b.nodes → ∀ {n : Nat} {r : List Bind × Nat},
    (Lower.bind c b).run n = .ok r → ∀ {t : Term} {ns : List Name}, Frees t.free ns [] →
      Frees (Lower.lets r.1 t).free (b.free .inOrder ++ ns.filter (· ∉ b.names)) []
  | .fn i g _, h, n, r, hr, t, ns, ht => by
    unfold Lower.bind at hr
    rw [Typed.Bind.nodes, fits_cons] at h
    obtain ⟨g', hg', hr⟩ := run_bind_eq_ok.1 hr
    rw [run_pure_eq_ok hr, Typed.Bind.free]
    refine (((frees_lambda h.2 hg').filter _).append (ht.filter _)).mono (fun x => ?_)
      (List.Subset.refl _)
    rw [Lower.lets, List.foldr_cons, List.foldr_nil, mem_free_letIn, free_recursive,
      List.mem_append]
    refine Or.imp_right fun hx => ?_
    rwa [List.mem_filter, decide_eq_true_eq]
  | .pat p e is l, h, n, r, hr, t, ns, ht => by
    unfold Lower.bind at hr
    rw [Typed.Bind.nodes, fits_cons] at h
    obtain ⟨hp, he⟩ := fits_append.1 h.2
    obtain ⟨b, -, hr⟩ := run_bind_eq_ok.1 hr
    obtain ⟨e', he', hr⟩ := run_bind_eq_ok.1 hr
    obtain ⟨sels, hsels, hr⟩ := run_bind_eq_ok.1 hr
    rw [run_pure_eq_ok hr, Typed.Bind.free, Lower.lets, List.foldr_cons, ← Lower.lets]
    refine fun x hx hl => .inl ?_
    rw [mem_free_letIn, free_single, names_single, List.mem_singleton] at hx
    rw [List.mem_append, List.mem_filter, decide_eq_true_eq]
    rcases hx with hx | ⟨hx, hne⟩
    · exact .inl ((frees_expr he he').mem hx hl)
    · have hsel := frees_selections hp h.1 hsels x hx hl
      obtain ⟨hx, hnot⟩ := hsel.resolve_right hne
      exact .inr ⟨ht.mem hx hl, hnot⟩
  | .abs tvs ds xs bs l, h, n, r, hr, t, ns, ht => by
    unfold Lower.bind at hr
    rw [Typed.Bind.nodes, fits_cons] at h
    obtain ⟨inner, hinner, hr⟩ := run_bind_eq_ok.1 hr
    rw [run_pure_eq_ok hr, Typed.Bind.free]
    refine frees_lets_exports ht (fun _ => rfl) fun x hx => ?_
    exact frees_exportBind (frees_binds h.2 hinner)
      (h.1 x hx)

theorem frees_binds : ∀ {bs : List Typed.Bind}, Fits c (Typed.Bind.nodesOf bs) →
    ∀ {n : Nat} {r : List Bind × Nat}, (Lower.binds c bs).run n = .ok r →
      ∀ {t : Term} {ns : List Name}, Frees t.free ns [] →
        Frees (Lower.lets r.1 t).free (Typed.Bind.scope .inOrder bs ns) []
  | [], _, n, r, hr, _, _, ht => by
    unfold Lower.binds at hr
    rw [run_pure_eq_ok hr, Typed.Bind.scope]
    exact ht
  | b :: bs, h, n, r, hr, _, _, ht => by
    unfold Lower.binds at hr
    rw [Typed.Bind.nodesOf] at h
    obtain ⟨hb, hbs⟩ := fits_append.1 h
    obtain ⟨b', hb', hr⟩ := run_bind_eq_ok.1 hr
    obtain ⟨bs', hbs', hr⟩ := run_bind_eq_ok.1 hr
    rw [run_pure_eq_ok hr, Typed.Bind.scope, lets_append]
    exact frees_bind hb hb' (frees_binds hbs hbs' ht)

end

/-- No local name is free in the definitions that a binding is lowered to. -/
def WellScoped (bs : List Bind) : Prop := ∀ b ∈ bs, ∀ x ∈ b.free, ¬ x.IsLocal

instance decidableWellScoped : DecidablePred WellScoped := fun bs =>
  inferInstanceAs (Decidable (∀ b ∈ bs, ∀ x ∈ b.free, ¬ x.IsLocal))

/-- What a group is lowered to is well-scoped if the group, read in order, takes no local names from
its surroundings. -/
theorem wellScoped_of_free {tvs : List String} {ds : List Typed.DictVar} {xs : List Typed.Export}
    {bs : List Typed.Bind} {l : Span} (h : Fits c (Typed.Bind.abs tvs ds xs bs l).nodes)
    (hfree : ∀ x ∈ (Typed.Bind.abs tvs ds xs bs l).free .inOrder, ¬ x.IsLocal) {out : List Bind}
    (hout : lowerBind c (.abs tvs ds xs bs l) = .ok out) : WellScoped out := by
  obtain ⟨n, hrun⟩ := run_of_lowerBind hout
  unfold Lower.bind at hrun
  rw [Typed.Bind.nodes, fits_cons] at h
  obtain ⟨inner, hinner, hrun⟩ := run_bind_eq_ok.1 hrun
  obtain rfl : out = xs.map (Lower.exportBind tvs ds inner.1) := run_pure_eq_ok hrun
  intro b hb y hy hl
  obtain ⟨x, hx, rfl⟩ := List.mem_map.1 hb
  have hexport : Frees (Lower.exportBind tvs ds inner.1 x).free
      ((Typed.Bind.scope .inOrder bs []).filter (· ∉ ds.map (·.name))) [] :=
    frees_exportBind (frees_binds h.2 hinner)
      (h.1 x hx)
  refine hfree y ?_ hl
  rw [Typed.Bind.free, if_neg (by simp [List.ne_nil_of_mem hx])]
  exact hexport.mem hy hl

end Core

end TypeLens
