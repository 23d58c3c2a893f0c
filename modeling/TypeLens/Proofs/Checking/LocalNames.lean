import TypeLens.Proofs.Checking.Dictionaries
import TypeLens.Proofs.Checking.Naming
import TypeLens.Proofs.Lowering.Scoped

/-!
Local names in what is checked without errors: each is that of an identifier or of a dictionary that
is around where it occurs.
-/

namespace TypeLens

namespace Check

open TypeLens.Core (BindScoped BindsScoped Fits GroupScoped RowScoped Scoped Within fits_append
  fits_cons)
open Typed (DictVar Head Ident Leads)

def Env.names (env : Env) : List Name := env.locals.map (·.2.name)

theorem Env.names_extend (env : Env) (ids : Locals) :
    (env.extend ids).names = ids.map (·.2.name) ++ env.names := List.map_append

/-- The variable is that of a binder, or it is known what it means at the top level. -/
def Env.Knows (env : Env) (occ : String) : Prop :=
  (∃ i, env.locals.lookup occ = some i) ∨
    ∀ n, resolve env.globals .value .variable occ = .ok n →
      ∃ e, env.globals.entity? n = some e ∧ e.isValue

/-- Surroundings in which local names are those of identifiers and of dictionaries in `A`. -/
structure Env.Serves (c : Core.Context) (A : List Name) (env : Env) : Prop where
  reducing : env.Reducing
  givens : ∀ d ∈ env.givens, d.name ∈ A
  instances : ∀ i ∈ env.globals.instances, ¬ i.name.IsLocal
  top : ∀ role occ n, resolve env.globals .value role occ = .ok n → ¬ n.IsLocal
  /-- A constructor is what lowering takes it for, if lowering takes it for one. -/
  constructors : ∀ n d, env.globals.entity? n = some (.dataCon d) →
    ∀ d', c.entity? d.name = some (.dataCon d') → d' = d

variable {c : Core.Context} {E : State} {A A' : List Name} {env : Env}

theorem Env.Knows.extend {occ : String} (h : env.Knows occ) (ids : Locals) :
    (env.extend ids).Knows occ := by
  refine h.imp_left fun ⟨i, hi⟩ => ?_
  have hall : (ids ++ env.locals).lookup occ = (ids.lookup occ).or (env.locals.lookup occ) :=
    List.lookup_append
  rw [hi] at hall
  cases hids : ids.lookup occ with
  | none => exact ⟨i, by rw [Env.extend, hall, hids, Option.none_or]⟩
  | some j => exact ⟨j, by rw [Env.extend, hall, hids, Option.some_or]⟩

theorem Env.mem_names_of_lookup {occ : String} {i : Ident} (h : env.locals.lookup occ = some i) :
    i.name ∈ env.names := by
  obtain ⟨l₁, l₂, hl, -⟩ := List.lookup_eq_some_iff.1 h
  rw [Env.names, hl]
  simp

namespace Env.Serves

theorem extend (h : env.Serves c A) (ids : Locals) : (env.extend ids).Serves c A := { h with }

theorem mono (h : env.Serves c A) (hA : A ⊆ A') : env.Serves c A' :=
  { h with givens := fun d hd => hA (h.givens d hd) }

theorem sign (h : env.Serves c A) (ds : List DictVar) (tvs : List String) :
    Env.Serves c (ds.map (·.name) ++ A)
      { env with givens := env.givens ++ ds, rigid := env.rigid ++ tvs } :=
  { h with
    givens := fun d hd => (List.mem_append.1 hd).elim
      (fun hd => List.mem_append_right _ (h.givens d hd))
      fun hd => List.mem_append_left _ (List.mem_map_of_mem hd) }

end Env.Serves

-- Names

/-- An occurrence takes the dictionaries that are around. -/
theorem scopes_occurrence {h : Head} {ns : List Name} (hA : A ⊆ ns)
    (hh : h.name.IsLocal → h.name ∈ ns) (occ : String) (loc : Span) :
    Scopes E A (occurrence h occ loc) fun r => Scoped c E.answers ns r.1 := by
  by_cases hm : h.scheme.isMono = true
  · unfold occurrence
    dsimp only
    rw [if_pos hm]
    exact .bind (scopes_note rfl (.head hh)) fun _ => .pure id
  refine ⟨conserves_occurrence h occ loc, fun pending s hb hs => ?_⟩
  let ts := (freshFor h.scheme.tvs).run s
  let preds := h.scheme.preds.map (·.substVars (assign h.scheme.tvs ts.1))
  obtain ⟨goals, hrun, -, hholes, -⟩ := run_wantedFor loc occ preds ts.2
  let e : Inferred := (.inst h ts.1 (goals.map fun g => .unsolved g.hole g.pred) loc,
    h.scheme.body.substVars (assign h.scheme.tvs ts.1))
  let s' : State := { ts.2 with
    holes := ts.2.holes + preds.length
    wanted := ts.2.wanted ++ goals
    inferred := e :: ts.2.inferred }
  have hr : (occurrence h occ loc).run s = (e, s') := by
    unfold occurrence
    dsimp only
    rw [if_neg hm, StateT.run_bind]
    change (wantedFor loc occ preds >>= _).run ts.2 = _
    rw [StateT.run_bind, hrun]
    rfl
  rw [hr] at hs ⊢
  have hnew : ∀ w ∈ goals, ts.2.holes ≤ w.hole := fun w hw =>
    (List.mem_range'_1.1 (hholes ▸ List.mem_map_of_mem hw)).1
  have hts : Ends E A pending ts.2 := by
    refine hs.of_later (List.Subset.refl _) (Nat.le_add_right ..) rfl (fun w hw => ?_) fun w hw =>
      hs.waiting w ?_
    · have hw : w ∈ pending ++ (ts.2.wanted ++ goals) := hw
      rw [← List.append_assoc, List.mem_append] at hw
      exact hw.imp_right (hnew w)
    · change w ∈ pending ++ (ts.2.wanted ++ goals)
      rw [← List.append_assoc]
      exact List.mem_append_left _ hw
  refine ⟨((scopes_rule.freshFor h.scheme.tvs).ends pending s hb hts).1, .inst hh ?_⟩
  intro x hx hl
  obtain ⟨d, hd, hx⟩ := Typed.mem_namesOf_holes.1 hx
  obtain ⟨d', hd', rfl⟩ := List.mem_map.1 hd
  obtain ⟨g, hg, rfl⟩ := List.mem_map.1 hd'
  rw [Typed.Answers.hole] at hx
  split at hx
  · next e he =>
    have hmem : g ∈ pending ++ (ts.2.wanted ++ goals) := by simp [hg]
    exact hA (hs.waiting g hmem x (Typed.leads_of_get? hs.final.args he hx) hl)
  · cases hx

theorem scopes_unknownName (env : Env) (occ : String) (loc : Span) :
    Scopes E A (unknownName env occ loc) fun _ => True :=
  .skip scopes_freshUvar fun t => .skip (scopes_rule.newLocal env occ t) fun _ =>
    scopes_note rfl trivial

/-- A name that is reported as an error. -/
theorem scopes_unresolved {p : Problem} (hp : p.constraint? = none) (he : p.severity = .error)
    (env : Env) (occ : String) (loc : Span) {Q : Inferred → Prop} :
    Scopes E A (do report p loc; unknownName env occ loc) Q :=
  .bind (scopes_report_error hp he loc) fun _ =>
    (scopes_unknownName env occ loc).mono fun _ _ h => h.elim

section

variable (henv : env.Serves c A)
include henv

theorem scopes_inferVar {occ : String} (hk : env.Knows occ) (loc : Span) :
    Scopes E A (inferVar env occ loc) fun r => Scoped c E.answers (env.names ++ A) r.1 := by
  have hA : A ⊆ env.names ++ A := List.subset_append_right ..
  unfold inferVar
  split
  · next i hi =>
    refine scopes_occurrence (h := .var i) hA (fun _ => ?_) occ loc
    exact List.mem_append_left _ (Env.mem_names_of_lookup hi)
  next hnone =>
  split
  · next p hp =>
    exact scopes_unresolved (constraint?_of_resolve hp) (isError_of_resolve hp) env occ loc
  next n hn =>
  have htop : n.IsLocal → n ∈ env.names ++ A := fun hl => absurd hl (henv.top _ _ _ hn)
  split
  · next d _ => exact scopes_occurrence (h := .con n d.scheme) hA htop occ loc
  · next i _ => exact scopes_occurrence (h := .var ⟨n, i.scheme⟩) hA htop occ loc
  · next hcon hident =>
    rcases hk with ⟨i, hi⟩ | hk
    · rw [hnone] at hi
      cases hi
    · obtain ⟨e, he, hvalue⟩ := hk n hn
      cases e with
      | dataCon d => exact absurd he (hcon d)
      | ident i => exact absurd he (hident i)
      | tyCon | typeClass => cases hvalue

theorem scopes_inferCon (occ : String) (loc : Span) :
    Scopes E A (inferCon env occ loc) fun r => Scoped c E.answers (env.names ++ A) r.1 := by
  unfold inferCon
  split
  · next p hp =>
    exact scopes_unresolved (constraint?_of_resolve hp) (isError_of_resolve hp) env occ loc
  next n hn =>
  split
  · exact scopes_occurrence (List.subset_append_right ..)
      (fun hl => absurd hl (henv.top _ _ _ hn)) occ loc
  · exact scopes_unresolved rfl rfl env occ loc

theorem scopes_inferOp {op : Surface.OpRef}
    (hk : isConOperator op.name = false → env.Knows op.name) :
    Scopes E A (inferOp env op) fun r => Scoped c E.answers (env.names ++ A) r.1 := by
  unfold inferOp
  split
  · exact scopes_inferCon henv op.name op.loc
  · next hcon => exact scopes_inferVar henv (hk (Bool.eq_false_iff.2 hcon)) op.loc

-- Operators

/-- An expression that is still to be checked takes what is around. -/
def Part.Scoping (c : Core.Context) (E : State) (A ns : List Name) (p : Part) : Prop :=
  Scopes E A p.infer fun r => Scoped c E.answers ns r.1

theorem scopes_inferTree {t : PartTree}
    (h : ∀ p ∈ t.operands, p.Scoping c E A (env.names ++ A))
    (hk : ∀ op ∈ t.operators, isConOperator op.name = false → env.Knows op.name) :
    Scopes E A (inferTree env t) fun r => Scoped c E.answers (env.names ++ A) r.1 := by
  induction t with
  | leaf p => exact h p (List.mem_singleton.2 rfl)
  | node l op r ihl ihr =>
    simp only [OpTree.operands, List.mem_append] at h
    simp only [OpTree.operators, List.mem_append, List.mem_cons] at hk
    unfold inferTree
    refine .bind (ihl (fun p hp => h p (.inl hp)) fun o ho => hk o (.inl ho)) fun l' => ?_
    refine .bind (scopes_inferOp henv (hk op (.inr (.inl rfl)))) fun op' => ?_
    refine .bind (ihr (fun p hp => h p (.inr hp)) fun o ho => hk o (.inr (.inr ho))) fun r' => ?_
    refine .skip scopes_freshUvar fun res => .skip (scopes_zonk _) fun t => ?_
    split
    · refine .skip (scopes_unify _ _ _) fun _ => .skip (scopes_unify _ _ _) fun _ => ?_
      exact scopes_note rfl fun hr hop hl => .opApp hl hop hr
    · refine .skip (scopes_unify _ _ _) fun _ => ?_
      exact scopes_note rfl fun hr hop hl => .opApp hl hop hr

theorem scopes_inferRow (first : Part) (rest : List (Surface.OpRef × Part))
    (hf : first.Scoping c E A (env.names ++ A))
    (hr : ∀ p ∈ rest, p.2.Scoping c E A (env.names ++ A) ∧
      (isConOperator p.1.name = false → env.Knows p.1.name)) :
    Scopes E A (inferRow env first rest) fun r => Scoped c E.answers (env.names ++ A) r.1 := by
  refine .skip (.forM fun c _ => scopes_report rfl _) fun _ => ?_
  refine scopes_inferTree henv (fun p hp => ?_) fun op hop => ?_
  · rw [OpTree.operands_resolve] at hp
    rcases List.mem_cons.1 hp with rfl | hp
    · exact hf
    · obtain ⟨q, hq, rfl⟩ := List.mem_map.1 hp
      exact (hr q hq).1
  · rw [OpTree.operators_resolve] at hop
    obtain ⟨q, hq, rfl⟩ := List.mem_map.1 hop
    exact (hr q hq).2

end

theorem scopes_inferElems (elemTy : Ty) {ns : List Name} {ps : List Part}
    (h : ∀ p ∈ ps, p.Scoping c E A ns) :
    Scopes E A (inferElems elemTy ps) fun es => ∀ e ∈ es, Scoped c E.answers ns e := by
  induction ps with
  | nil => exact .pure (by simp)
  | cons p ps ih =>
    refine .bind (h p (List.mem_cons_self ..)) fun e => .skip (scopes_unify _ _ _) fun _ => ?_
    refine .bind (ih fun q hq => h q (List.mem_cons_of_mem _ hq)) fun es => .pure fun hes he => ?_
    exact List.forall_mem_cons.2 ⟨he, hes⟩

-- Patterns

namespace Scopes

variable {α β : Type}

theorem bindPat {act : PatM α} {f : α → PatM β} {b : Bound} {P : α × Bound → Prop}
    {Q : β × Bound → Prop} (h : Scopes E A (act.run b) P)
    (hf : ∀ r, Scopes E A ((f r.1).run r.2) fun x => P r → Q x) :
    Scopes E A ((act >>= f).run b) Q := by
  rw [StateT.run_bind]
  exact h.bind hf

theorem purePat {a : α} {b : Bound} {P : α × Bound → Prop} (h : P (a, b)) :
    Scopes E A ((Pure.pure a : PatM α).run b) P := .pure h

theorem lift {act : CheckM α} {P : α → Prop} (h : Scopes E A act P) (b : Bound) :
    Scopes E A ((liftM act : PatM α).run b) fun r => P r.1 ∧ r.2 = b := by
  have hlift : Scopes E A (act >>= fun a => Pure.pure (a, b)) fun r => P r.1 ∧ r.2 = b :=
    h.bind fun _ => .pure fun ha => ⟨ha, rfl⟩
  exact hlift

end Scopes

/-- What is bound in `b'` was bound in `b` or has one of the names. -/
def BindsAmong (b b' : Bound) (names : List Name) : Prop :=
  ∀ i ∈ b'.values, i ∈ b.values ∨ i.name ∈ names

/-- Identifiers of a group stand for themselves once they are bound, those of `occs` included. -/
def BindsGroup (group : Bound) (occs : List String) (b b' : Bound) : Prop :=
  ∀ occ i, group.get? occ = some i → b.get? occ = some i ∨ occ ∈ occs → b'.get? occ = some i

/-- A pattern with what was bound before and after it. -/
structure PatBinds (c : Core.Context) (group : Bound) (occs : List String) (p : Typed.Pat)
    (b b' : Bound) : Prop where
  fits : Fits c p.nodes
  names : BindsAmong b b' p.names
  group : BindsGroup group occs b b'

/-- Patterns against as many types, or more. -/
structure PatsBind (c : Core.Context) (group : Bound) (occs : List String) (n m : Nat)
    (ps : List Typed.Pat) (b b' : Bound) : Prop where
  fits : Fits c (Typed.Pat.nodesOf ps)
  length : ps.length ≤ m
  names : BindsAmong b b' (Typed.Pat.namesOf ps)
  group : n ≤ m → BindsGroup group occs b b'

theorem BindsAmong.trans {b b' b'' : Bound} {ns ns' : List Name} (h : BindsAmong b b' ns)
    (h' : BindsAmong b' b'' ns') : BindsAmong b b'' (ns ++ ns') := by
  intro i hi
  rw [List.mem_append]
  rcases h' i hi with hi | hi
  · exact (h i hi).imp_right .inl
  · exact .inr (.inr hi)

theorem BindsGroup.trans {group b b' b'' : Bound} {occs occs' : List String}
    (h : BindsGroup group occs b b') (h' : BindsGroup group occs' b' b'') :
    BindsGroup group (occs ++ occs') b b'' := by
  intro occ i hi hb
  rw [List.mem_append, ← or_assoc] at hb
  exact h' occ i hi (hb.imp_left (h occ i hi))

theorem binds_put {group b : Bound} {occ : String} {i : Ident}
    (hi : ∀ j, group.get? occ = some j → i = j) :
    BindsAmong b (b.put occ i) [i.name] ∧ BindsGroup group [occ] b (b.put occ i) := by
  constructor
  · intro j hj
    have hput : ∀ p ∈ b.put occ i, p.2 ∈ b.values ∨ p.2.name ∈ [i.name] :=
      Table.forall_mem_put (fun p hp => .inl (List.mem_map_of_mem hp))
        (.inr (List.mem_singleton_self _))
    obtain ⟨p, hp, rfl⟩ := List.mem_map.1 hj
    exact hput p hp
  · intro occ' j hj hb
    by_cases hocc : occ = occ'
    · subst hocc
      rw [Table.get?_put_self, hi j hj]
    · rw [Table.get?_put_of_ne hocc]
      exact hb.resolve_right fun h => hocc (List.mem_singleton.1 h).symm

theorem BindsGroup.same {group b : Bound} : BindsGroup group [] b b := fun _ _ _ hb =>
  hb.resolve_right List.not_mem_nil

/-- A pattern without variables. -/
theorem PatBinds.same {group : Bound} {p : Typed.Pat} (b : Bound) (hp : Fits c p.nodes) :
    PatBinds c group [] p b b := ⟨hp, fun _ hi => .inl hi, .same⟩

theorem returns_patIdent (group : Bound) (occ : String) (t : Ty) (loc : Span) :
    Returns (patIdent env group occ t loc) fun i => ∀ j, group.get? occ = some j → i = j := by
  unfold patIdent
  split
  · next i hi =>
    refine .skip fun _ => .pure fun j hj => ?_
    rw [hi] at hj
    exact Option.some.inj hj
  · next hnone =>
    intro s j hj
    rw [hnone] at hj
    cases hj

theorem of_resolveCon {g : Globals} {occ : String} {d : DataCon} (h : resolveCon g occ = .ok d) :
    ∃ n, g.entity? n = some (.dataCon d) := by
  unfold resolveCon at h
  cases hr : resolve g .value .dataConstructor occ with
  | error q =>
    rw [hr] at h
    cases h
  | ok n =>
    rw [hr] at h
    simp only [bind, Except.bind] at h
    split at h
    · next d' hd =>
      cases h
      exact ⟨n, hd⟩
    · cases h

mutual

theorem scopes_checkPat (henv : env.Serves c A) (group : Bound) :
    ∀ (p : Surface.Pat) (t : Ty) (b : Bound), Scopes E A ((checkPat env group p t).run b)
      fun r => PatBinds c group (p.binders.map (·.1)) r.1 b r.2
  | .var n l, t, b => by
    unfold checkPat
    have hident : Scopes E A (patIdent env group n t l) fun i =>
        ∀ j, group.get? n = some j → i = j :=
      (scopes_rule.patIdent env group n t l).returning (returns_patIdent group n t l)
    refine .bindPat (P := fun r => r = (b, b)) (.pure rfl) fun r => ?_
    refine .bindPat (.lift (scopes_rule.reportIf _ l (p := .definedTwice n) rfl) r.2) fun r₁ => ?_
    refine .bindPat (.lift hident r₁.2) fun r₂ => ?_
    refine .bindPat (P := fun x => x.2 = r₂.2.put n r₂.1) (.pure rfl) fun x => .purePat ?_
    rintro hx ⟨hi, h₂⟩ ⟨-, h₁⟩ rfl
    rw [h₁] at h₂
    rw [h₂] at hx
    rw [hx]
    exact ⟨List.forall_mem_singleton.2 trivial, (binds_put hi).1, (binds_put hi).2⟩
  | .wild l, t, b => by
    unfold checkPat
    exact .purePat (.same b (List.forall_mem_singleton.2 trivial))
  | .lit v l, t, b => by
    unfold checkPat
    refine .bindPat (.lift (scopes_unify _ _ _) b) fun r => .purePat ?_
    rintro ⟨-, rfl⟩
    exact .same _ (List.forall_mem_singleton.2 trivial)
  | .par p l, t, b => by
    unfold checkPat
    refine .bindPat (scopes_checkPat henv group p t b) fun r => .purePat fun hr => ⟨?_, ?_, ?_⟩
    · rw [Typed.Pat.nodes, fits_cons]
      exact ⟨trivial, hr.fits⟩
    · rw [Typed.Pat.names]
      exact hr.names
    · rw [Surface.Pat.binders]
      exact hr.group
  | .con n ps l, t, b => by
    unfold checkPat
    split
    · next p hp =>
      have hreport : Scopes E A (report p l) fun _ => False :=
        scopes_report_error (constraint?_of_resolveCon hp) (isError_of_resolveCon hp) l
      refine .bindPat (.lift hreport b) fun r => ?_
      refine .bindPat (scopes_rule.freshPats env group ps r.2) fun r' => .purePat ?_
      exact fun _ hr => hr.1.elim
    next d hd =>
    obtain ⟨k, hk⟩ := of_resolveCon hd
    split
    · next hlen =>
      refine .bindPat (.lift (scopes_rule.freshFor _) b) fun ts => ?_
      refine .bindPat (.lift (scopes_unify _ _ _) ts.2) fun r => ?_
      refine .bindPat (scopes_checkPats henv group ps _ r.2) fun r' => .purePat ?_
      rintro hr' ⟨-, hr⟩ ⟨-, hts⟩
      rw [hr, hts, List.length_map] at hr'
      refine ⟨?_, hr'.names, hr'.group (Nat.le_of_eq hlen.symm)⟩
      rw [Typed.Pat.nodes, fits_cons]
      refine ⟨fun d' hd' => ?_, hr'.fits⟩
      rw [henv.constructors k d hk d' hd']
      exact hr'.length
    · refine .bindPat (.lift (scopes_report_error rfl rfl l) b) fun r => .purePat ?_
      exact fun hr => hr.1.elim

theorem scopes_checkPats (henv : env.Serves c A) (group : Bound) :
    ∀ (ps : List Surface.Pat) (ts : List Ty) (b : Bound),
      Scopes E A ((checkPats env group ps ts).run b) fun r =>
        PatsBind c group ((Surface.Pat.bindersList ps).map (·.1)) ps.length ts.length r.1 b r.2
  | p :: ps, t :: ts, b => by
    unfold checkPats
    refine .bindPat (scopes_checkPat henv group p t b) fun r => ?_
    refine .bindPat (scopes_checkPats henv group ps ts r.2) fun r' => .purePat fun hr' hr => ?_
    refine ⟨?_, Nat.succ_le_succ hr'.length, ?_, fun hlen => ?_⟩
    · rw [Typed.Pat.nodesOf, fits_append]
      exact ⟨hr.fits, hr'.fits⟩
    · rw [Typed.Pat.namesOf]
      exact hr.names.trans hr'.names
    · rw [Surface.Pat.bindersList, List.map_append]
      exact hr.group.trans (hr'.group (Nat.le_of_succ_le_succ hlen))
  | [], _, b => by
    unfold checkPats
    exact .purePat ⟨Core.fits_nil, Nat.zero_le _, fun _ hi => .inl hi, fun _ => .same⟩
  | _ :: _, [], b => by
    unfold checkPats
    refine .purePat ⟨Core.fits_nil, Nat.zero_le _, fun _ hi => .inl hi, fun hlen => ?_⟩
    exact absurd hlen (Nat.not_succ_le_zero _)

end

end Check

end TypeLens
