import TypeLens.Proofs.Surface.Literals
import TypeLens.Proofs.Surface.Outlines

/-!
What is built of a run of tokens is drawn over these tokens.
-/

namespace TypeLens

namespace Concrete

theorem TupleTail.exists_yield_eq (t : TupleTail) :
    ∃ init, t.yield = init ++ [t.closing.token] := by
  cases t with
  | last t r => exact ⟨t.yield, rfl⟩
  | more t c rest =>
    obtain ⟨init, hrest⟩ := rest.exists_yield_eq
    exact ⟨t.yield ++ c.token :: init, by simp [yield, closing, hrest]⟩

theorem ListTail.exists_yield_eq (l : ListTail) :
    ∃ init, l.yield = init ++ [l.closing.token] := by
  cases l with
  | close r => exact ⟨[], rfl⟩
  | more c e rest =>
    obtain ⟨init, hrest⟩ := rest.exists_yield_eq
    exact ⟨c.token :: e.yield ++ init, by simp [yield, closing, hrest]⟩

theorem AltTail.exists_yield_eq (l : AltTail) :
    ∃ init, l.yield = init ++ [l.closing.token] := by
  cases l with
  | close r => exact ⟨[], rfl⟩
  | trailing s r => exact ⟨[s.token], rfl⟩
  | more s a rest =>
    obtain ⟨init, hrest⟩ := rest.exists_yield_eq
    exact ⟨s.token :: a.yield ++ init, by simp [yield, closing, hrest]⟩

end Concrete

namespace Surface

open Concrete
open Layout (isSynthetic)
open Token (Ordered)

-- Regions of concrete trees

theorem spans_atomicTy (t : AtomicTy) : Spans t.yield t.region := by
  cases t with
  | con n | var n => exact .tok n rfl
  | list l t r | paren l t r => exact (Spans.tok l rfl).through (.tok r rfl) t.yield
  | tuple l t c rest =>
    obtain ⟨init, hrest⟩ := rest.exists_yield_eq
    simpa [AtomicTy.yield, AtomicTy.region, hrest] using
      (Spans.tok l rfl).through (.tok rest.closing rfl) (t.yield ++ c.token :: init)

theorem spans_appliedTy (t : AppliedTy) : Spans t.yield t.region := by
  cases t with
  | atom t => exact spans_atomicTy t
  | app f a => exact (spans_appliedTy f).append (spans_atomicTy a)

theorem spans_fullTy (t : FullTy) : Spans t.yield t.region := by
  cases t with
  | plain t => exact spans_appliedTy t
  | fn a arrow r => exact (spans_appliedTy a).through (spans_fullTy r) [arrow.token]

theorem spans_qualTy : ∀ q : QualTy, Spans q.yield q.region
  | .plain t => spans_fullTy t
  | .qualified c arrow t => (spans_appliedTy c).through (spans_fullTy t) [arrow.token]

theorem spans_atomicPat (p : AtomicPat) : Spans p.yield p.region := by
  cases p with
  | var t | wild t | con t | int t | string t => exact .tok t rfl
  | nil l r => exact (Spans.tok l rfl).append (.tok r rfl)
  | paren l p r => exact (Spans.tok l rfl).through (.tok r rfl) p.yield

theorem Spans.extend {ts : List Token} {r : Region} (h : Spans ts r) (ps : AtomicPats) :
    Spans (ts ++ ps.yield) (ps.extend r) := by
  cases ps with
  | nil => simpa [AtomicPats.yield, AtomicPats.extend] using h
  | cons p rest =>
    simpa [AtomicPats.yield, AtomicPats.extend] using (h.append (spans_atomicPat p)).extend rest

theorem spans_appliedPat (p : AppliedPat) : Spans p.yield p.region := by
  cases p with
  | atom p => exact spans_atomicPat p
  | app c p rest => exact ((Spans.tok c rfl).append (spans_atomicPat p)).extend rest

theorem spans_fullPat (p : FullPat) : Spans p.yield p.region := by
  cases p with
  | plain p => exact spans_appliedPat p
  | infixed l op r => exact (spans_appliedPat l).through (spans_fullPat r) [op.token]

theorem spans_binder : ∀ b : Binder, Spans b.yield b.region
  | .var n => .tok n rfl
  | .op l n r => (Spans.tok l rfl).through (.tok r rfl) [n.token]

theorem spans_patLhs : ∀ l : PatLhs, Spans l.yield l.region
  | .con n args => (Spans.tok n rfl).extend args
  | .paren l p r => (Spans.tok l rfl).through (.tok r rfl) p.yield

theorem spans_atomicExpr (e : AtomicExpr) : Spans e.yield e.region := by
  cases e with
  | var t | con t | int t | string t => exact .tok t rfl
  | op l n r => exact (Spans.tok l rfl).through (.tok r rfl) [n.token]
  | paren l e r => exact (Spans.tok l rfl).through (.tok r rfl) e.yield
  | nil l r => exact (Spans.tok l rfl).append (.tok r rfl)
  | list l e rest =>
    obtain ⟨init, hrest⟩ := rest.exists_yield_eq
    simpa [AtomicExpr.yield, AtomicExpr.region, hrest] using
      (Spans.tok l rfl).through (.tok rest.closing rfl) (e.yield ++ init)

theorem spans_appliedExpr (e : AppliedExpr) : Spans e.yield e.region := by
  cases e with
  | atom e => exact spans_atomicExpr e
  | app f a => exact (spans_appliedExpr f).append (spans_atomicExpr a)

mutual

theorem spans_operation : ∀ e : Operation, Spans e.yield e.region
  | .last e => spans_appliedExpr e
  | .more e op rest => (spans_appliedExpr e).through (spans_operation rest) [op.token]
  | .keyword e op last => (spans_appliedExpr e).through (spans_keywordExpr last) [op.token]

theorem spans_keywordExpr : ∀ e : KeywordExpr, Spans e.yield e.region
  | .lambda bs p rest arrow body => by
    simpa [KeywordExpr.yield, KeywordExpr.region] using (Spans.tok bs rfl).through
      (spans_fullExpr body) (p.yield ++ rest.yield ++ [arrow.token])
  | .letIn kw binds inKw body => by
    simpa [KeywordExpr.yield, KeywordExpr.region] using (Spans.tok kw rfl).through
      (spans_fullExpr body) (binds.yield ++ [inKw.token])
  | .ifThenElse ifKw c thenKw y elseKw n => by
    simpa [KeywordExpr.yield, KeywordExpr.region] using (Spans.tok ifKw rfl).through
      (spans_fullExpr n) (c.yield ++ thenKw.token :: y.yield ++ [elseKw.token])
  | .caseOf kw s ofKw l alt rest => by
    obtain ⟨init, hrest⟩ := rest.exists_yield_eq
    simpa [KeywordExpr.yield, KeywordExpr.region, hrest] using (Spans.tok kw rfl).through
      (.tok rest.closing rfl) (s.yield ++ ofKw.token :: l.token :: alt.yield ++ init)

theorem spans_fullExpr : ∀ e : FullExpr, Spans e.yield e.region
  | .operation e => spans_operation e
  | .keyword e => spans_keywordExpr e

end

theorem spans_caseAlt (a : CaseAlt) : Spans a.yield a.region := by
  obtain ⟨p, arrow, e⟩ := a
  exact (spans_fullPat p).through (spans_fullExpr e) [arrow.token]

theorem spans_equation (e : Equation) : Spans e.yield e.region := by
  obtain ⟨b, ps, eq, e⟩ := e
  simpa [Equation.yield, Equation.region] using
    (spans_binder b).through (spans_fullExpr e) (ps.yield ++ [eq.token])

theorem spans_patEquation (e : PatEquation) : Spans e.yield e.region := by
  obtain ⟨lhs, eq, e⟩ := e
  exact (spans_patLhs lhs).through (spans_fullExpr e) [eq.token]

-- Builds

/-- Whatever is built has a property. -/
def Gives {α : Type} (x : Build α) (P : α → Prop) : Prop := ∀ a, x = .ok a → P a

namespace Gives

variable {α β : Type} {x : Build α} {P : α → Prop} {Q : β → Prop}

theorem ok {a : α} (h : P a) : Gives (.ok a) P := fun _ hb => Except.ok.inj hb ▸ h

theorem misuse (m : Misuse) (l : Span) : Gives (misuse m l) P := fun _ h => by cases h

theorem mono {P' : α → Prop} (h : Gives x P) (hP : ∀ a, P a → P' a) : Gives x P' :=
  fun a ha => hP a (h a ha)

theorem bind {f : α → Build β} (h : Gives x P) (hf : ∀ a, P a → Gives (f a) Q) :
    Gives (x >>= f) Q := by
  intro b hb
  cases x with
  | ok a => exact hf a (h a rfl) b hb
  | error e => cases hb

theorem skip {f : α → Build β} (hf : ∀ a, Gives (f a) Q) : Gives (x >>= f) Q :=
  Gives.bind (fun _ _ => trivial : Gives x fun _ => True) fun a _ => hf a

end Gives

section Drawings

variable (file : Option String)

mutual

theorem drawn_atomicTy : ∀ t : AtomicTy,
    Gives (buildAtomicTy file t) fun x => Drawn file t.yield [x.outline]
  | .con n | .var n => .ok (.leaf (.tok n rfl))
  | .list l t r => (drawn_fullTy t).bind fun _ hx =>
    .ok (.node (spans_atomicTy (.list l t r)) ((hx.before [r.token]).skip l.token))
  | .paren l t r => (drawn_fullTy t).mono fun _ hx => (hx.before [r.token]).skip l.token
  | .tuple _ _ _ _ => .misuse _ _

theorem drawn_appliedTy : ∀ t : AppliedTy,
    Gives (buildAppliedTy file t) fun x => Drawn file t.yield [x.outline]
  | .atom t => drawn_atomicTy t
  | .app f a => (drawn_appliedTy f).bind fun x hx => by
    cases x with
    | con n args l =>
      refine (drawn_atomicTy a).bind fun _ hy => .ok (.node (spans_appliedTy (.app f a)) ?_)
      simpa [AppliedTy.yield] using hx.parts.append hy
    | var | fn => exact .misuse _ _

theorem drawn_fullTy : ∀ t : FullTy,
    Gives (buildFullTy file t) fun x => Drawn file t.yield [x.outline]
  | .plain t => drawn_appliedTy t
  | .fn a arrow r => (drawn_appliedTy a).bind fun _ hx => (drawn_fullTy r).bind fun _ hy =>
    .ok (.node (spans_fullTy (.fn a arrow r)) (hx.cons (hy.skip arrow.token)))

end

omit file in
mutual

theorem sublist_contextItems : ∀ t : AppliedTy,
    ((contextItems t).flatMap FullTy.yield).Sublist t.yield
  | .atom t => sublist_contextAtom t
  | .app f a => by simp [contextItems, FullTy.yield]

theorem sublist_contextAtom : ∀ t : AtomicTy,
    ((contextAtom t).flatMap FullTy.yield).Sublist t.yield
  | .tuple l t c rest => by
    have hrest := sublist_items rest
    simpa [contextAtom, AtomicTy.yield] using
      .cons _ ((List.Sublist.refl _).append (.cons _ hrest))
  | .paren l t r => (sublist_contextFull t).trans (by simp [AtomicTy.yield])
  | .con n | .var n => by simp [contextAtom, FullTy.yield, AppliedTy.yield]
  | .list l t r => by simp [contextAtom, FullTy.yield, AppliedTy.yield]

theorem sublist_contextFull : ∀ t : FullTy,
    ((contextFull t).flatMap FullTy.yield).Sublist t.yield
  | .plain t => sublist_contextItems t
  | .fn a arrow r => by simp [contextFull]

theorem sublist_items : ∀ t : TupleTail, (t.items.flatMap FullTy.yield).Sublist t.yield
  | .last t r => by simp [TupleTail.items, TupleTail.yield]
  | .more t c rest => by
    have hrest := sublist_items rest
    simpa [TupleTail.items, TupleTail.yield] using .cons _ hrest

end

theorem drawn_pred (t : FullTy) :
    Gives (buildPred file t) fun p => Drawn file t.yield [p.outline] :=
  (drawn_fullTy file t).bind fun _ hx => by
    split
    · exact .ok hx.withoutParts
    · exact .misuse _ _

/-- What is built of several runs is drawn over all of them. -/
theorem drawn_mapM {ι α : Type} {f : ι → Build α} {yield : ι → List Token} {g : α → Outline}
    {is : List ι} (h : ∀ i ∈ is, Gives (f i) fun a => Drawn file (yield i) [g a]) :
    Gives (is.mapM f) fun as => Drawn file (is.flatMap yield) (as.map g) := by
  induction is with
  | nil => exact .ok .nil
  | cons i is ih =>
    obtain ⟨hi, his⟩ := List.forall_mem_cons.1 h
    rw [List.mapM_cons]
    exact hi.bind fun a ha => (ih his).bind fun as has => .ok (ha.cons has)

theorem drawn_qualTy : ∀ q : QualTy,
    Gives (buildQualTy file q) fun x => Drawn file q.yield [x.outline]
  | .plain t => (drawn_fullTy file t).bind fun _ hx => .ok (.node (spans_qualTy (.plain t)) hx)
  | .qualified c arrow t =>
    (drawn_mapM file fun t _ => drawn_pred file t).bind fun _ hps =>
      (drawn_fullTy file t).bind fun _ hx => .ok <| .node (spans_qualTy (.qualified c arrow t)) <|
        (hps.widen (sublist_contextItems c)).append (hx.skip arrow.token)

-- Patterns

mutual

theorem drawn_atomicPat : ∀ p : AtomicPat,
    Gives (buildAtomicPat file p) fun x => Drawn file p.yield [x.outline]
  | .var t | .wild t | .con t => .ok (.leaf (.tok t rfl))
  | .int t | .string t => .skip fun _ => .ok (.leaf (.tok t rfl))
  | .nil l r => .ok (.leaf (spans_atomicPat (.nil l r)))
  | .paren l p r => (drawn_fullPat p).bind fun _ hx =>
    .ok (.node (spans_atomicPat (.paren l p r)) ((hx.before [r.token]).skip l.token))

theorem drawn_atomicPats : ∀ ps : AtomicPats,
    Gives (buildAtomicPats file ps) fun xs => Drawn file ps.yield (xs.map Pat.outline)
  | .nil => .ok .nil
  | .cons p ps => (drawn_atomicPat p).bind fun _ hx => (drawn_atomicPats ps).bind fun _ hxs =>
    .ok (hx.cons hxs)

theorem drawn_appliedPat : ∀ p : AppliedPat,
    Gives (buildAppliedPat file p) fun x => Drawn file p.yield [x.outline]
  | .atom p => drawn_atomicPat p
  | .app c p ps => (drawn_atomicPat p).bind fun _ hx => (drawn_atomicPats ps).bind fun _ hxs => by
    refine .ok (.node (spans_appliedPat (.app c p ps)) ?_)
    rw [Pat.outlines_eq]
    exact (hx.skip c.token).cons hxs

theorem drawn_fullPat : ∀ p : FullPat,
    Gives (buildFullPat file p) fun x => Drawn file p.yield [x.outline]
  | .plain p => drawn_appliedPat p
  | .infixed l op r => by
    rw [buildFullPat]
    split
    · exact (drawn_appliedPat l).bind fun _ hx => (drawn_fullPat r).bind fun _ hy =>
        .ok (.node (spans_fullPat (.infixed l op r)) (hx.cons (hy.skip op.token)))
    · exact .misuse _ _

end

theorem drawn_patLhs : ∀ l : PatLhs,
    Gives (buildPatLhs file l) fun x => Drawn file l.yield [x.outline]
  | .con n args => (drawn_atomicPats file args).bind fun _ hps => by
    refine .ok (.node (spans_patLhs (.con n args)) ?_)
    rw [Pat.outlines_eq]
    exact hps.skip n.token
  | .paren l p r => (drawn_fullPat file p).bind fun _ hx =>
    .ok (.node (spans_patLhs (.paren l p r)) ((hx.before [r.token]).skip l.token))

-- Joined equations

/-- What is joined has the parts of both, in order. -/
def Joins {α : Type} (join? : α → α → Option α) (g : α → Outline) : Prop :=
  ∀ a b c, join? a b = some c → ∃ l os l' ps, g a = .mk l os ∧ g b = .mk l' ps ∧
    g c = .mk (l.cover l') (os ++ ps)

variable {file} in
theorem drawn_joinFrom {α : Type} {join? : α → α → Option α} {g : α → Outline}
    (hjoin : Joins join? g) {ts : List Token} {x : α} {ys : List α}
    (h : Drawn file ts (g x :: ys.map g)) : Drawn file ts ((joinFrom join? x ys).map g) := by
  induction ys generalizing ts x with
  | nil => exact h
  | cons y ys ih =>
    obtain ⟨xs, rest, rfl, hx, hrest⟩ := h.uncons
    rw [joinFrom]
    split
    · next z hz =>
      obtain ⟨l, os, l', ps, hgx, hgy, hgz⟩ := hjoin x y z hz
      obtain ⟨us, vs, rfl, hy, hys⟩ := hrest.uncons
      have hjoined : Drawn file (xs ++ us) [g z] := hgz ▸ .join (hgx ▸ hx) (hgy ▸ hy)
      rw [← List.append_assoc]
      exact ih (hjoined.cons hys)
    · exact hx.cons (ih hrest)

variable {file} in
theorem drawn_joinNeighbours {α : Type} {join? : α → α → Option α} {g : α → Outline}
    (hjoin : Joins join? g) {ts : List Token} {xs : List α} (h : Drawn file ts (xs.map g)) :
    Drawn file ts ((joinNeighbours join? xs).map g) := by
  cases xs with
  | nil => exact h
  | cons x xs => exact drawn_joinFrom hjoin h

theorem joins_funBind : Joins FunBind.join? FunBind.outline := by
  rintro ⟨n, nl, m, ms, l⟩ ⟨n', nl', m', ms', l'⟩ c h
  obtain ⟨-, rfl⟩ := FunBind.join?_eq_some_iff.1 h
  refine ⟨l, _, l', _, rfl, rfl, ?_⟩
  simp [FunBind.outline, FunBind.loc, FunBind.first, FunBind.equations]

theorem joins_binding : Joins Binding.join? Binding.outline := by
  rintro a b c h
  obtain ⟨a, b, c, rfl, rfl, hc, rfl⟩ := Binding.join?_eq_some_iff.1 h
  exact joins_funBind a b c hc

theorem joins_decl : Joins Decl.join? Decl.outline := by
  rintro a b c h
  obtain ⟨a, b, c, rfl, rfl, hc, rfl⟩ := Decl.join?_eq_some_iff.1 h
  exact joins_funBind a b c hc

-- Expressions

mutual

theorem drawn_atomicExpr : ∀ e : AtomicExpr,
    Gives (buildAtomicExpr file e) fun x => Drawn file e.yield [x.outline]
  | .var t | .con t => .ok (.leaf (.tok t rfl))
  | .op l n r => by
    refine .ok ?_
    split <;> exact .leaf (spans_atomicExpr (.op l n r))
  | .int t | .string t => .skip fun _ => .ok (.leaf (.tok t rfl))
  | .paren l e r => (drawn_fullExpr e).bind fun _ hx =>
    .ok (.node (spans_atomicExpr (.paren l e r)) ((hx.before [r.token]).skip l.token))
  | .nil l r => .ok (.leaf (spans_atomicExpr (.nil l r)))
  | .list l e rest => (drawn_fullExpr e).bind fun _ hx => (drawn_listTail rest).bind fun _ hxs => by
    refine .ok (.node (spans_atomicExpr (.list l e rest)) ?_)
    rw [Expr.outlines_eq]
    exact (hx.skip l.token).cons hxs

theorem drawn_listTail : ∀ l : ListTail,
    Gives (buildListTail file l) fun xs => Drawn file l.yield (xs.map Expr.outline)
  | .close _ => .ok (.none _)
  | .more c e rest => (drawn_fullExpr e).bind fun _ hx => (drawn_listTail rest).bind fun _ hxs =>
    .ok ((hx.skip c.token).cons hxs)

theorem drawn_appliedExpr : ∀ e : AppliedExpr,
    Gives (buildAppliedExpr file e) fun x => Drawn file e.yield [x.outline]
  | .atom e => drawn_atomicExpr e
  | .app f a => (drawn_appliedExpr f).bind fun _ hx => (drawn_atomicExpr a).bind fun _ hy =>
    .ok (.node (spans_appliedExpr (.app f a)) (hx.cons hy))

theorem drawn_operands : ∀ e : Operation,
    Gives (buildOperands file e) fun r => Drawn file e.yield (r.1.outline :: Operand.outlines r.2)
  | .last e => (drawn_appliedExpr e).bind fun _ hx => .ok hx
  | .more e op rest => (drawn_appliedExpr e).bind fun _ hx => (drawn_operands rest).bind fun _ hr =>
    .ok (hx.cons ((Drawn.leaf (.tok op rfl)).cons hr))
  | .keyword e op last => (drawn_appliedExpr e).bind fun _ hx =>
    (drawn_keywordExpr last).bind fun _ hr => .ok (hx.cons ((Drawn.leaf (.tok op rfl)).cons hr))

theorem drawn_keywordExpr : ∀ e : KeywordExpr,
    Gives (buildKeywordExpr file e) fun x => Drawn file e.yield [x.outline]
  | .lambda bs p ps arrow body => (drawn_atomicPat file p).bind fun _ hp =>
    (drawn_atomicPats file ps).bind fun _ hps => (drawn_fullExpr body).bind fun _ he => by
      refine .ok (.node (spans_keywordExpr (.lambda bs p ps arrow body)) ?_)
      rw [Pat.outlines_eq]
      exact ((hp.skip bs.token).cons hps).append (he.skip arrow.token)
  | .letIn kw binds inKw body => (drawn_letBinds binds).bind fun _ hbs =>
    (drawn_fullExpr body).bind fun _ he => by
      refine .ok (.node (spans_keywordExpr (.letIn kw binds inKw body)) ?_)
      rw [Binding.outlines_eq]
      exact ((drawn_joinNeighbours joins_binding hbs).skip kw.token).append (he.skip inKw.token)
  | .ifThenElse ifKw c thenKw y elseKw n => (drawn_fullExpr c).bind fun _ hc =>
    (drawn_fullExpr y).bind fun _ hy => (drawn_fullExpr n).bind fun _ hn =>
      .ok <| .node (spans_keywordExpr (.ifThenElse ifKw c thenKw y elseKw n)) <|
        ((hc.skip ifKw.token).append (hy.skip thenKw.token)).append (hn.skip elseKw.token)
  | .caseOf kw s ofKw l alt rest => (drawn_caseAlt alt).bind fun _ ha =>
    (drawn_altTail rest).bind fun _ has => (drawn_fullExpr s).bind fun _ hs => by
      refine .ok (.node (spans_keywordExpr (.caseOf kw s ofKw l alt rest)) ?_)
      rw [Alt.outlines_eq]
      exact ((hs.skip kw.token).append ((ha.skip l.token).skip ofKw.token)).append has

theorem drawn_fullExpr : ∀ e : FullExpr,
    Gives (buildFullExpr file e) fun x => Drawn file e.yield [x.outline]
  | .keyword e => drawn_keywordExpr e
  | .operation e => (drawn_operands e).bind fun _ hr => by
    refine .ok ?_
    split
    · next hempty =>
      rw [List.isEmpty_iff.1 hempty] at hr
      exact hr
    · exact .node (spans_operation e) hr

theorem drawn_caseAlt : ∀ a : CaseAlt,
    Gives (buildCaseAlt file a) fun x => Drawn file a.yield [x.outline]
  | .mk p arrow e => (drawn_fullPat file p).bind fun _ hp => (drawn_fullExpr e).bind fun _ he =>
    .ok (.node (spans_caseAlt (.mk p arrow e)) (hp.cons (he.skip arrow.token)))

theorem drawn_altTail : ∀ l : AltTail,
    Gives (buildAltTail file l) fun xs => Drawn file l.yield (xs.map Alt.outline)
  | .close _ | .trailing _ _ => .ok (.none _)
  | .more s a rest => (drawn_caseAlt a).bind fun _ hx => (drawn_altTail rest).bind fun _ hxs =>
    .ok ((hx.skip s.token).cons hxs)

theorem drawn_letBinds : ∀ b : LetBinds,
    Gives (buildLetBinds file b) fun xs => Drawn file b.yield (xs.map Binding.outline)
  | .single b => (drawn_letBind b).bind fun _ hx => .ok hx
  | .block l b rest => (drawn_letBind b).bind fun _ hx => (drawn_letTail rest).bind fun _ hxs =>
    .ok ((hx.skip l.token).cons hxs)

theorem drawn_letTail : ∀ l : LetTail,
    Gives (buildLetTail file l) fun xs => Drawn file l.yield (xs.map Binding.outline)
  | .close _ | .trailing _ _ => .ok (.none _)
  | .more s b rest => (drawn_letBind b).bind fun _ hx => (drawn_letTail rest).bind fun _ hxs =>
    .ok ((hx.skip s.token).cons hxs)

theorem drawn_letBind : ∀ b : LetBind,
    Gives (buildLetBind file b) fun x => Drawn file b.yield [x.outline]
  | .equation e => (drawn_equation e).bind fun _ hx => .ok hx
  | .pattern e => (drawn_patEquation e).bind fun _ hx => .ok hx

theorem drawn_equation : ∀ e : Equation,
    Gives (buildEquation file e) fun x => Drawn file e.yield [x.outline]
  | .mk b ps eq e => (drawn_atomicPats file ps).bind fun _ hps =>
    (drawn_fullExpr e).bind fun _ he => by
      have hspans := spans_equation (.mk b ps eq e)
      refine .ok (.node hspans (.node hspans ?_))
      rw [Pat.outlines_eq]
      exact (hps.after b.yield).append (he.skip eq.token)

theorem drawn_patEquation : ∀ e : PatEquation,
    Gives (buildPatEquation file e) fun x => Drawn file e.yield [x.outline]
  | .mk lhs eq e => (drawn_patLhs file lhs).bind fun _ hp => (drawn_fullExpr e).bind fun _ he =>
    .ok (.node (spans_patEquation (.mk lhs eq e)) (hp.cons (he.skip eq.token)))

end

-- Declarations

omit file in
theorem SepBy.sublist_items {sep : Terminal} {α : Type} (f : α → List Token) (s : SepBy sep α) :
    (s.items.flatMap f).Sublist (s.yield f) := by
  have hmore (ps : List (Tok sep × α)) :
      ((ps.map Prod.snd).flatMap f).Sublist (ps.flatMap fun p => p.1.token :: f p.2) := by
    induction ps with
    | nil => exact .slnil
    | cons p ps ih => exact .cons _ ((List.Sublist.refl _).append ih)
  exact (List.Sublist.refl _).append (hmore s.more)

omit file in
theorem Block.sublist_toList {α : Type} (f : α → List Token) (b : Option (Block α)) :
    ((b.elim [] Block.toList).flatMap f).Sublist (b.elim [] (·.yield f)) := by
  rcases b with _ | ⟨kw, opening, _ | items, closing⟩
  · exact .slnil
  · exact List.nil_sublist _
  · exact .cons _ (.cons _ ((SepBy.sublist_items f items).trans (List.sublist_append_left ..)))

variable {file} in
/-- A node with all of its tokens. -/
theorem Drawn.whole {ts : List Token} {os : List Outline} {r : Region} (h : Drawn file ts os)
    (hr : Spans ts r) : Drawn file ts [.mk (spanOf file ts) os] := hr.span_eq file ▸ .node hr h

variable {file} in
theorem Drawn.keyword {k : Terminal} {t : Tok k} {ts : List Token} {os : List Outline}
    (h : Drawn file ts os) (hk : isSynthetic k = false) :
    Drawn file (t.token :: ts) [.mk (spanOf file (t.token :: ts)) os] := by
  obtain ⟨r, hr⟩ := Spans.exists_of_head (t := t.token) hk ts
  exact (h.skip t.token).whole hr

theorem drawn_signature (s : Signature) :
    Gives (buildSignature file s) fun x => Drawn file s.yield [x.outline] := by
  obtain ⟨⟨b, more⟩, colons, ty⟩ := s
  have hspans := (spans_binder b).through (spans_qualTy ty)
    (more.flatMap (fun p => p.1.token :: p.2.yield) ++ [colons.token])
  rw [← List.append_assoc, ← List.append_assoc, List.append_assoc _ [colons.token]] at hspans
  exact (drawn_qualTy file ty).bind fun _ hq =>
    .ok (.whole ((hq.skip colons.token).after _) hspans)

theorem drawn_constructor (c : Constructor) :
    Gives (buildConstructor file c) fun x => Drawn file c.yield [x.outline] := by
  refine (drawn_mapM file fun t _ => drawn_atomicTy file t).bind fun _ hargs => .ok (.keyword ?_ rfl)
  rw [TypeExpr.outlines_eq]
  exact hargs

theorem drawn_decl (d : Concrete.Decl) :
    Gives (buildDecl file d) fun x => Drawn file d.yield [x.outline] := by
  cases d with
  | data kw n vs cons =>
    refine (drawn_mapM file fun c _ => drawn_constructor file c).bind fun _ hcons =>
      .ok (.keyword ?_ rfl)
    have hitems : ((cons.elim [] fun p => p.2.items).flatMap Constructor.yield).Sublist
        (cons.elim [] fun p => p.1.token :: p.2.yield Constructor.yield) := by
      cases cons with
      | none => exact .slnil
      | some p => exact .cons _ (SepBy.sublist_items Constructor.yield p.2)
    exact (hcons.widen hitems).after (n.token :: vs.map Tok.token)
  | signature s => exact (drawn_signature file s).bind fun _ hs => .ok hs
  | primitive kw s => exact (drawn_signature file s).bind fun _ hs => .ok (.keyword hs rfl)
  | fixity kw p ops =>
    refine .skip fun n => ?_
    split
    · exact .misuse _ _
    · refine .ok ?_
      cases kw <;> exact .keyword (.none _) rfl
  | typeClass kw n v body =>
    refine (drawn_mapM file fun s _ => drawn_signature file s).bind fun _ hsigs =>
      .ok (.keyword ?_ rfl)
    exact (hsigs.widen (Block.sublist_toList Signature.yield body)).after [n.token, v.token]
  | inst kw head body =>
    refine (drawn_qualTy file head).bind fun q hq => ?_
    split
    · next cls arg l hbody =>
      refine (drawn_mapM file fun e _ => drawn_equation file e).bind fun _ heqs =>
        .ok (.keyword ?_ rfl)
      have hbinds := drawn_joinNeighbours joins_funBind
        (heqs.widen (Block.sublist_toList Equation.yield body))
      obtain ⟨xs, ys, hhead, hcontext, hbody'⟩ := hq.parts.split
      rw [hbody] at hbody'
      have harg : Drawn file ys [arg.outline] := hbody'.parts
      rw [hhead]
      simpa [groupEquations] using (hcontext.append harg).append hbinds
    · exact .misuse _ _
  | equation e => exact (drawn_equation file e).bind fun _ he => .ok he
  | pattern e => exact (drawn_patEquation file e).bind fun _ he => .ok he

-- Modules

/-- The outlines of what has been read. -/
def Progress.outlines (p : Progress) : List Outline :=
  p.imports.map ImportDecl.outline ++ p.decls.map Decl.outline

theorem drawn_topDecl {ts : List Token} {p : Progress} (hp : Drawn file ts p.outlines)
    (d : TopDecl) :
    Gives (buildTopDecl file p d) fun q => Drawn file (ts ++ d.yield) q.outlines := by
  unfold buildTopDecl
  cases d with
  | header kw n =>
    dsimp only
    split
    · exact .misuse _ _
    · exact .ok (hp.before _)
  | importDecl kw n =>
    dsimp only
    split
    · exact .misuse _ _
    · next hdecls =>
      have hnone : p.decls = [] := by simpa using hdecls
      have himport : Drawn file (TopDecl.importDecl kw n).yield
          [.mk (spanOf file (TopDecl.importDecl kw n).yield) []] := .keyword (.none _) rfl
      refine .ok ?_
      simpa [Progress.outlines, hnone, ImportDecl.outline] using hp.append himport
  | decl d =>
    refine (drawn_decl file d).bind fun x hx => .ok ?_
    simpa [Progress.outlines, TopDecl.yield] using hp.append hx

theorem drawn_topDecls {ts : List Token} {p : Progress} (hp : Drawn file ts p.outlines)
    (ds : List TopDecl) : Gives (ds.foldlM (buildTopDecl file) p) fun q =>
      Drawn file (ts ++ ds.flatMap TopDecl.yield) q.outlines := by
  induction ds generalizing ts p with
  | nil => exact .ok (hp.before _)
  | cons d ds ih =>
    rw [List.foldlM_cons]
    refine (drawn_topDecl file hp d).bind fun q hq => (ih hq).mono fun _ h => ?_
    rw [List.append_assoc] at h
    exact h

/-- The imports and declarations are drawn over the tokens of the module. -/
theorem drawn_module (c : Concrete.Module) : Gives (buildModule file c) fun m =>
    Drawn file c.yield m.outlines ∧ m.loc = spanOf file c.yield := by
  have hsublist : (c.toList.flatMap TopDecl.yield).Sublist c.yield := by
    obtain ⟨_ | ds⟩ := c
    · exact .slnil
    · exact SepBy.sublist_items TopDecl.yield ds
  refine (drawn_topDecls file .nil c.toList).bind fun p hp => .ok ⟨?_, rfl⟩
  obtain ⟨xs, ys, hyield, himports, hdecls⟩ := (hp.widen hsublist).split
  rw [hyield]
  exact himports.append (drawn_joinNeighbours joins_decl hdecls)

end Drawings

theorem spans_module {c : Concrete.Module} (h : c.yield ≠ []) : ∃ r, Spans c.yield r := by
  obtain ⟨_ | ⟨d, ds⟩⟩ := c
  · exact absurd rfl h
  · obtain ⟨t, us, hd, ht⟩ := d.exists_yield
    have hreal : isSynthetic t.kind = false := by
      cases hk : t.kind <;> first | rfl | (rw [hk] at ht; cases ht)
    obtain ⟨r, hr⟩ := Spans.exists_of_head hreal
      (us ++ ds.flatMap fun p => p.1.token :: p.2.yield)
    refine ⟨r, ?_⟩
    rw [Concrete.Module.yield, Option.elim_some, SepBy.yield, hd]
    exact hr

/-- What is built of tokens in the order of the text nests. -/
theorem nests_buildModule {file : Option String} {c : Concrete.Module} {m : Module}
    (h : buildModule file c = .ok m) (hc : Ordered c.yield) : m.Nests := by
  obtain ⟨hdrawn, hloc⟩ := drawn_module file c m h
  have hstands := hdrawn.stands hc
  refine ⟨hstands.nests, hstands.inOrder, fun o ho => ?_⟩
  obtain ⟨t, ht, -⟩ := hstands.anchored o ho
  obtain ⟨r, hr⟩ := spans_module (List.ne_nil_of_mem ht)
  have hwhole := (hdrawn.whole hr).stands hc
  rw [hloc]
  exact (hwhole.nests _ (List.mem_singleton.2 rfl)).within o ho

theorem exists_buildModule_of_parseModule {w : Int} {file : Option String} {source : String}
    {m : Module} (h : parseModule w file source = .ok m) :
    ∃ c, readModule w source = .ok c ∧ buildModule file c = .ok m := by
  unfold parseModule at h
  split at h
  · cases h
  cases hc : readModule w source with
  | error e =>
    rw [hc] at h
    cases h
  | ok c =>
    refine ⟨c, rfl, ?_⟩
    simp only [hc] at h
    cases hb : buildModule file c with
    | error f => simp [hb, Except.mapError] at h
    | ok m' => simpa [hb, Except.mapError] using h

/-- The spans of a module that is read from a text nest. -/
theorem nests_parseModule {w : Int} {file : Option String} {source : String} {m : Module}
    (h : parseModule w file source = .ok m) : m.Nests := by
  obtain ⟨c, hread, hbuild⟩ := exists_buildModule_of_parseModule h
  refine nests_buildModule hbuild ?_
  rw [(readModule_eq_ok_iff.1 hread).2]
  exact Layout.ordered_process w (Lex.ordered_lex _) isSynthetic_of_mem_lex

end Surface

end TypeLens
