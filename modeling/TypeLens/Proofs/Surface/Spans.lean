import TypeLens.Proofs.Grammar.Positions
import TypeLens.Proofs.Surface.Literals

/-!
Positions do not matter for building either: of trees whose tokens are alike but for their positions,
what is built is alike but for its spans.
-/

namespace TypeLens.Surface

open Concrete

-- Trees with other spans

section MapSpans

variable (h : Span → Span)

mutual

@[simp]
def TypeExpr.mapSpans : TypeExpr → TypeExpr
  | .var n l => .var n (h l)
  | .con n args l => .con n (TypeExpr.mapSpansAll args) (h l)
  | .fn a r l => .fn a.mapSpans r.mapSpans (h l)

@[simp]
def TypeExpr.mapSpansAll : List TypeExpr → List TypeExpr
  | [] => []
  | t :: ts => t.mapSpans :: TypeExpr.mapSpansAll ts

end

def PredExpr.mapSpans (p : PredExpr) : PredExpr := { p with loc := h p.loc }

def QualType.mapSpans (q : QualType) : QualType :=
  ⟨q.context.map (PredExpr.mapSpans h), q.body.mapSpans h, h q.loc⟩

mutual

@[simp]
def Pat.mapSpans : Pat → Pat
  | .var n l => .var n (h l)
  | .wild l => .wild (h l)
  | .lit v l => .lit v (h l)
  | .con n args l => .con n (Pat.mapSpansAll args) (h l)
  | .par p l => .par p.mapSpans (h l)

@[simp]
def Pat.mapSpansAll : List Pat → List Pat
  | [] => []
  | p :: ps => p.mapSpans :: Pat.mapSpansAll ps

end

def OpRef.mapSpans (op : OpRef) : OpRef := { op with loc := h op.loc }

mutual

@[simp]
def Expr.mapSpans : Expr → Expr
  | .var n l => .var n (h l)
  | .con n l => .con n (h l)
  | .lit v l => .lit v (h l)
  | .app f a l => .app f.mapSpans a.mapSpans (h l)
  | .row e rest l => .row e.mapSpans (Operand.mapSpansAll rest) (h l)
  | .lambda ps e l => .lambda (Pat.mapSpansAll h ps) e.mapSpans (h l)
  | .letIn bs e l => .letIn (Binding.mapSpansAll bs) e.mapSpans (h l)
  | .ifThenElse c y n l => .ifThenElse c.mapSpans y.mapSpans n.mapSpans (h l)
  | .caseOf s as l => .caseOf s.mapSpans (Alt.mapSpansAll as) (h l)
  | .list es l => .list (Expr.mapSpansAll es) (h l)
  | .par e l => .par e.mapSpans (h l)

@[simp]
def Expr.mapSpansAll : List Expr → List Expr
  | [] => []
  | e :: es => e.mapSpans :: Expr.mapSpansAll es

@[simp]
def Operand.mapSpans : Operand → Operand
  | .mk op e => .mk (op.mapSpans h) e.mapSpans

@[simp]
def Operand.mapSpansAll : List Operand → List Operand
  | [] => []
  | o :: os => o.mapSpans :: Operand.mapSpansAll os

@[simp]
def Alt.mapSpans : Alt → Alt
  | .mk p e l => .mk (p.mapSpans h) e.mapSpans (h l)

@[simp]
def Alt.mapSpansAll : List Alt → List Alt
  | [] => []
  | a :: as => a.mapSpans :: Alt.mapSpansAll as

@[simp]
def Match.mapSpans : Match → Match
  | .mk ps e l => .mk (Pat.mapSpansAll h ps) e.mapSpans (h l)

@[simp]
def Match.mapSpansAll : List Match → List Match
  | [] => []
  | m :: ms => m.mapSpans :: Match.mapSpansAll ms

@[simp]
def FunBind.mapSpans : FunBind → FunBind
  | .mk n nl m ms l => .mk n (h nl) m.mapSpans (Match.mapSpansAll ms) (h l)

@[simp]
def PatBind.mapSpans : PatBind → PatBind
  | .mk p e l => .mk (p.mapSpans h) e.mapSpans (h l)

@[simp]
def Binding.mapSpans : Binding → Binding
  | .fn b => .fn b.mapSpans
  | .pat b => .pat b.mapSpans

@[simp]
def Binding.mapSpansAll : List Binding → List Binding
  | [] => []
  | b :: bs => b.mapSpans :: Binding.mapSpansAll bs

end

def ImportDecl.mapSpans (i : ImportDecl) : ImportDecl := { i with loc := h i.loc }

def ConDecl.mapSpans (c : ConDecl) : ConDecl :=
  ⟨c.name, c.args.map (TypeExpr.mapSpans h), h c.loc⟩

def TypeSig.mapSpans (s : TypeSig) : TypeSig :=
  ⟨s.names.map fun n => (n.1, h n.2), s.ty.mapSpans h, h s.loc⟩

def Decl.mapSpans : Decl → Decl
  | .data d => .data { d with
      cons := d.cons.map (ConDecl.mapSpans h), loc := h d.loc, nameLoc := h d.nameLoc }
  | .sig s => .sig (s.mapSpans h)
  | .prim p => .prim ⟨p.sig.mapSpans h, h p.loc⟩
  | .fixity d => .fixity { d with loc := h d.loc }
  | .cls c => .cls { c with
      sigs := c.sigs.map (TypeSig.mapSpans h), loc := h c.loc, nameLoc := h c.nameLoc }
  | .inst i => .inst ⟨i.context.map (PredExpr.mapSpans h), i.cls, i.head.mapSpans h,
      i.binds.map (FunBind.mapSpans h), h i.loc⟩
  | .bind b => .bind (b.mapSpans h)

def Progress.mapSpans (p : Progress) : Progress :=
  ⟨p.header.map fun x => (x.1, h x.2), p.imports.map (ImportDecl.mapSpans h),
    p.decls.map (Decl.mapSpans h)⟩

def Module.mapSpans (m : Module) : Module :=
  ⟨m.name, m.imports.map (ImportDecl.mapSpans h), m.decls.map (Decl.mapSpans h), h m.loc,
    h m.headerLoc⟩

@[simp]
def Fault.mapSpans : Fault → Fault
  | .misuse m loc => .misuse m (h loc)
  | f => f

@[simp]
theorem TypeExpr.mapSpansAll_eq (ts : List TypeExpr) :
    TypeExpr.mapSpansAll h ts = ts.map (TypeExpr.mapSpans h) := by
  induction ts <;> simp_all

@[simp]
theorem Pat.mapSpansAll_eq (ps : List Pat) : Pat.mapSpansAll h ps = ps.map (Pat.mapSpans h) := by
  induction ps <;> simp_all

@[simp]
theorem Expr.mapSpansAll_eq (es : List Expr) :
    Expr.mapSpansAll h es = es.map (Expr.mapSpans h) := by
  induction es <;> simp_all

@[simp]
theorem Operand.mapSpansAll_eq (os : List Operand) :
    Operand.mapSpansAll h os = os.map (Operand.mapSpans h) := by
  induction os <;> simp_all

@[simp]
theorem Alt.mapSpansAll_eq (as : List Alt) : Alt.mapSpansAll h as = as.map (Alt.mapSpans h) := by
  induction as <;> simp_all

@[simp]
theorem Match.mapSpansAll_eq (ms : List Match) :
    Match.mapSpansAll h ms = ms.map (Match.mapSpans h) := by
  induction ms <;> simp_all

@[simp]
theorem Binding.mapSpansAll_eq (bs : List Binding) :
    Binding.mapSpansAll h bs = bs.map (Binding.mapSpans h) := by
  induction bs <;> simp_all

@[simp]
theorem TypeExpr.loc_mapSpans (t : TypeExpr) : (t.mapSpans h).loc = h t.loc := by
  cases t <;> rfl

variable {h} in
theorem TypeExpr.eq_con_of_mapSpans_eq {t a : TypeExpr} {cls : String} {l : Span}
    (ht : t.mapSpans h = TypeExpr.mapSpans h (.con cls [a] l)) :
    ∃ a' l', t = .con cls [a'] l' ∧ a'.mapSpans h = a.mapSpans h ∧ h l' = h l := by
  rcases t with _ | ⟨n, args, k⟩ | _ <;> simp at ht
  obtain ⟨rfl, ⟨a', rfl, ha⟩, hk⟩ := ht
  exact ⟨a', k, rfl, ha, hk⟩

variable {h} in
theorem TypeExpr.eq_var_of_mapSpans_eq {t : TypeExpr} {v : String} {l : Span}
    (ht : t.mapSpans h = TypeExpr.mapSpans h (.var v l)) : ∃ l', t = .var v l' := by
  cases t <;> simp at ht
  exact ⟨_, by rw [ht.1]⟩

end MapSpans

/-- Two builds with the same outcome but for spans, `g` being what is left of a result. -/
inductive SameBuild {α β : Type} (h : Span → Span) (g : α → β) : Build α → Build α → Prop
  | ok {a b : α} (hab : g a = g b) : SameBuild h g (.ok a) (.ok b)
  | error {e e' : Fault} (he : e.mapSpans h = e'.mapSpans h) : SameBuild h g (.error e) (.error e')

namespace SameBuild

variable {α β γ δ : Type} {h : Span → Span} {g : α → β} {g' : γ → δ} {x y : Build α}

theorem bind {k l : α → Build γ} (hx : SameBuild h g x y)
    (hk : ∀ a b, g a = g b → SameBuild h g' (k a) (l b)) : SameBuild h g' (x >>= k) (y >>= l) := by
  cases hx with
  | ok hab => exact hk _ _ hab
  | error he => exact .error he

/-- What is built last is put together from it. -/
theorem map {k l : α → γ} (hx : SameBuild h g x y) (hk : ∀ a b, g a = g b → g' (k a) = g' (l b)) :
    SameBuild h g' (x >>= fun a => pure (k a)) (y >>= fun a => pure (l a)) :=
  hx.bind fun a b hab => .ok (hk a b hab)

theorem refl (x : Build α) : SameBuild h g x x := by
  cases x with
  | ok a => exact .ok rfl
  | error e => exact .error rfl

theorem misuse {m : Misuse} {l l' : Span} (hl : h l = h l') :
    SameBuild h g (misuse m l) (misuse m l') := .error (by simp [hl])

theorem mapM {ι : Type} {f f' : ι → Build α} (r : ι → ι) (hf : ∀ i, SameBuild h g (f (r i)) (f' i))
    (is : List ι) : SameBuild h (List.map g) ((is.map r).mapM f) (is.mapM f') := by
  induction is with
  | nil => exact .ok rfl
  | cons i is ih =>
    rw [List.map_cons, List.mapM_cons, List.mapM_cons]
    exact (hf i).bind fun a b hab => ih.map fun as bs habs => by simp [hab, habs]

theorem toOption (hx : SameBuild h g x y) : x.toOption.map g = y.toOption.map g := by
  cases hx with
  | ok hab => exact congrArg some hab
  | error => rfl

end SameBuild

/-- After `f` has moved the tokens, `h` leaves of a span what it leaves of it before. -/
structure Forgets (file : Option String) (f : Position → Position) (h : Span → Span) : Prop where
  region : ∀ r : Region, h ((r.relocate f).span file) = h (r.span file)
  cover : ∀ a b : Span, h (a.cover b) = (h a).cover (h b)

-- Grouping

section Grouping

variable {α β : Type} {g : α → β} {join? : α → α → Option α} {join'? : β → β → Option β}

theorem map_joinFrom (hg : ∀ a b, join'? (g a) (g b) = (join? a b).map g) (x : α) (xs : List α) :
    joinFrom join'? (g x) (xs.map g) = (joinFrom join? x xs).map g := by
  induction xs generalizing x with
  | nil => rfl
  | cons y ys ih =>
    rw [List.map_cons, joinFrom, joinFrom, hg]
    cases join? x y with
    | none => simp [ih]
    | some z => simp [ih]

theorem map_joinNeighbours (hg : ∀ a b, join'? (g a) (g b) = (join? a b).map g) :
    ∀ xs : List α, joinNeighbours join'? (xs.map g) = (joinNeighbours join? xs).map g
  | [] => rfl
  | x :: xs => map_joinFrom hg x xs

theorem joinNeighbours_congr (hg : ∀ a b, join'? (g a) (g b) = (join? a b).map g) {xs ys : List α}
    (h : xs.map g = ys.map g) : (joinNeighbours join? xs).map g = (joinNeighbours join? ys).map g := by
  rw [← map_joinNeighbours hg, h, map_joinNeighbours hg]

variable {h : Span → Span} (hcover : ∀ a b : Span, h (a.cover b) = (h a).cover (h b))
include hcover

theorem FunBind.join?_mapSpans (a b : FunBind) :
    (a.mapSpans h).join? (b.mapSpans h) = (a.join? b).map (FunBind.mapSpans h) := by
  have hname (c : FunBind) : (c.mapSpans h).name = c.name := by
    cases c; rfl
  have harity (c : FunBind) : (c.mapSpans h).arity = c.arity := by
    obtain ⟨_, _, ⟨ps, _, _⟩, _, _⟩ := c
    simp [FunBind.arity, FunBind.first, Match.pats]
  simp only [FunBind.join?, hname, harity]
  by_cases hab : a.name = b.name ∧ 0 < a.arity ∧ a.arity = b.arity
  · rw [if_pos hab, if_pos hab]
    cases a
    cases b
    simp [hcover]
  · rw [if_neg hab, if_neg hab, Option.map_none]

theorem Binding.join?_mapSpans (a b : Binding) :
    (a.mapSpans h).join? (b.mapSpans h) = (a.join? b).map (Binding.mapSpans h) := by
  cases a <;> cases b <;>
    simp [Binding.join?, FunBind.join?_mapSpans hcover, Option.map_map, Function.comp_def]

theorem Decl.join?_mapSpans (a b : Decl) :
    (a.mapSpans h).join? (b.mapSpans h) = (a.join? b).map (Decl.mapSpans h) := by
  cases a <;> cases b <;>
    simp [Decl.mapSpans, Decl.join?, Binding.join?_mapSpans hcover, Option.map_map, Function.comp_def]

end Grouping

section Builds

variable {file : Option String} {f : Position → Position} {h : Span → Span} (H : Forgets file f h)
include H

/-- The span of a moved node. -/
theorem Forgets.span {r r' : Region} (hr : r' = r.relocate f) : h (r'.span file) = h (r.span file) :=
  hr ▸ H.region r

theorem Forgets.spanOf (ts : List Token) :
    h (Surface.spanOf file (ts.map (Token.relocate f))) = h (Surface.spanOf file ts) := by
  unfold Surface.spanOf
  rw [List.head?_map, List.getLast?_map]
  cases ts.head? with
  | none => rfl
  | some a =>
    cases ts.getLast? with
    | none => rfl
    | some b => exact H.region ⟨a.region.start, b.region.stop⟩

-- Types

mutual

theorem sameBuild_atomicTy : ∀ t : AtomicTy, SameBuild h (TypeExpr.mapSpans h)
    (buildAtomicTy file (t.relocate f)) (buildAtomicTy file t)
  | .con n | .var n => .ok (by simp [H.region])
  | .list l t r => (sameBuild_fullTy t).map fun a b hab => by
    simpa [hab] using H.span ((AtomicTy.list l t r).region_relocate f)
  | .paren _ t _ => sameBuild_fullTy t
  | .tuple l t c rest => .misuse (H.span ((AtomicTy.tuple l t c rest).region_relocate f))

theorem sameBuild_appliedTy : ∀ t : AppliedTy, SameBuild h (TypeExpr.mapSpans h)
    (buildAppliedTy file (t.relocate f)) (buildAppliedTy file t)
  | .atom t => sameBuild_atomicTy t
  | .app g a => (sameBuild_appliedTy g).bind fun x y hxy => by
    have hloc := H.span ((AppliedTy.app g a).region_relocate f)
    cases x <;> cases y <;> simp at hxy <;> try exact .misuse hloc
    exact (sameBuild_atomicTy a).map fun x y hxy' => by simpa [hxy, hxy'] using hloc

theorem sameBuild_fullTy : ∀ t : FullTy, SameBuild h (TypeExpr.mapSpans h)
    (buildFullTy file (t.relocate f)) (buildFullTy file t)
  | .plain t => sameBuild_appliedTy t
  | .fn a arrow r => (sameBuild_appliedTy a).bind fun x y hxy =>
    (sameBuild_fullTy r).map fun x' y' hxy' => by
      simpa [hxy, hxy'] using H.span ((FullTy.fn a arrow r).region_relocate f)

end

omit H in
mutual

theorem contextItems_relocate : ∀ t : AppliedTy,
    contextItems (t.relocate f) = (contextItems t).map (FullTy.relocate f)
  | .atom t => contextAtom_relocate t
  | .app _ _ => rfl

theorem contextAtom_relocate : ∀ t : AtomicTy,
    contextAtom (t.relocate f) = (contextAtom t).map (FullTy.relocate f)
  | .tuple _ t _ rest => by simp [contextAtom]
  | .paren _ t _ => contextFull_relocate t
  | .con _ | .var _ | .list _ _ _ => rfl

theorem contextFull_relocate : ∀ t : FullTy,
    contextFull (t.relocate f) = (contextFull t).map (FullTy.relocate f)
  | .plain t => contextItems_relocate t
  | .fn _ _ _ => rfl

end

theorem sameBuild_pred (t : FullTy) : SameBuild h (PredExpr.mapSpans h)
    (buildPred file (t.relocate f)) (buildPred file t) :=
  (sameBuild_fullTy H t).bind fun x y hxy => by
    have hloc : h x.loc = h y.loc := by simpa using congrArg TypeExpr.loc hxy
    split
    · obtain ⟨a, _, rfl, ha, hl⟩ := TypeExpr.eq_con_of_mapSpans_eq hxy.symm
      obtain ⟨_, rfl⟩ := TypeExpr.eq_var_of_mapSpans_eq ha
      exact .ok (by simp [PredExpr.mapSpans, hl])
    · rename_i hx
      split
      · obtain ⟨a, _, rfl, ha, -⟩ := TypeExpr.eq_con_of_mapSpans_eq hxy
        obtain ⟨_, rfl⟩ := TypeExpr.eq_var_of_mapSpans_eq ha
        exact absurd rfl (hx _ _ _ _)
      · exact .misuse hloc

theorem sameBuild_qualTy : ∀ q : QualTy, SameBuild h (QualType.mapSpans h)
    (buildQualTy file (q.relocate f)) (buildQualTy file q)
  | .plain t => (sameBuild_fullTy H t).map fun x y hxy => by
    simpa [QualType.mapSpans, hxy] using H.span ((QualTy.plain t).region_relocate f)
  | .qualified c arrow t => by
    have hc := SameBuild.mapM (FullTy.relocate f) (sameBuild_pred H) (contextItems c)
    rw [← contextItems_relocate] at hc
    refine hc.bind fun ps qs hpq => (sameBuild_fullTy H t).map fun x y hxy => ?_
    simpa [QualType.mapSpans, hxy, hpq] using H.span ((QualTy.qualified c arrow t).region_relocate f)

-- Patterns

set_option linter.unusedSectionVars false in
mutual

theorem sameBuild_atomicPat : ∀ p : AtomicPat, SameBuild h (Pat.mapSpans h)
    (buildAtomicPat file (p.relocate f)) (buildAtomicPat file p)
  | .var n | .wild n | .con n => .ok (by simp [H.region])
  | .int t => (SameBuild.refl (g := id) (buildInt t.text)).map fun a b hab => by
    simpa [H.region] using hab
  | .string t => (SameBuild.refl (g := id) (buildString t.text)).map fun a b hab => by
    simpa [H.region] using hab
  | .nil l r => .ok (by simpa using H.span ((AtomicPat.nil l r).region_relocate f))
  | .paren l p r => (sameBuild_fullPat p).map fun a b hab => by
    simpa [hab] using H.span ((AtomicPat.paren l p r).region_relocate f)

theorem sameBuild_atomicPats : ∀ ps : AtomicPats, SameBuild h (List.map (Pat.mapSpans h))
    (buildAtomicPats file (ps.relocate f)) (buildAtomicPats file ps)
  | .nil => .ok rfl
  | .cons p ps => (sameBuild_atomicPat p).bind fun a b hab =>
    (sameBuild_atomicPats ps).map fun as bs habs => by simp [hab, habs]

theorem sameBuild_appliedPat : ∀ p : AppliedPat, SameBuild h (Pat.mapSpans h)
    (buildAppliedPat file (p.relocate f)) (buildAppliedPat file p)
  | .atom p => sameBuild_atomicPat p
  | .app c p ps => (sameBuild_atomicPat p).bind fun a b hab =>
    (sameBuild_atomicPats ps).map fun as bs habs => by
      simpa [hab, habs] using H.span ((AppliedPat.app c p ps).region_relocate f)

theorem sameBuild_fullPat : ∀ p : FullPat, SameBuild h (Pat.mapSpans h)
    (buildFullPat file (p.relocate f)) (buildFullPat file p)
  | .plain p => sameBuild_appliedPat p
  | .infixed l op r => by
    rw [FullPat.relocate, buildFullPat, buildFullPat, Tok.text_relocate]
    split
    · exact (sameBuild_appliedPat l).bind fun a b hab =>
        (sameBuild_fullPat r).map fun a' b' hab' => by
          simpa [hab, hab'] using H.span ((FullPat.infixed l op r).region_relocate f)
    · exact .misuse (H.region op.region)

end

theorem sameBuild_patLhs : ∀ l : PatLhs, SameBuild h (Pat.mapSpans h)
    (buildPatLhs file (l.relocate f)) (buildPatLhs file l)
  | .con n args => (sameBuild_atomicPats H args).map fun ps qs hpq => by
    simpa [hpq, PatLhs.relocate] using H.span ((PatLhs.con n args).region_relocate f)
  | .paren l p r => (sameBuild_fullPat H p).map fun a b hab => by
    simpa [hab, PatLhs.relocate] using H.span ((PatLhs.paren l p r).region_relocate f)

-- Expressions

omit H in
@[simp]
theorem binderName_relocate (b : Binder) : binderName (b.relocate f) = binderName b := by
  cases b <;> rfl

set_option linter.unusedSectionVars false in
mutual

theorem sameBuild_atomicExpr : ∀ e : AtomicExpr, SameBuild h (Expr.mapSpans h)
    (buildAtomicExpr file (e.relocate f)) (buildAtomicExpr file e)
  | .var n | .con n => .ok (by simp [H.region])
  | .op l n r => .ok (by
    have hloc := H.span ((AtomicExpr.op l n r).region_relocate f)
    rw [Tok.text_relocate]
    by_cases hc : isConOperator n.text <;> simpa [hc] using hloc)
  | .int t => (SameBuild.refl (g := id) (buildInt t.text)).map fun a b hab => by
    simpa [H.region] using hab
  | .string t => (SameBuild.refl (g := id) (buildString t.text)).map fun a b hab => by
    simpa [H.region] using hab
  | .paren l e r => (sameBuild_fullExpr e).map fun a b hab => by
    simpa [hab] using H.span ((AtomicExpr.paren l e r).region_relocate f)
  | .nil l r => .ok (by simpa using H.span ((AtomicExpr.nil l r).region_relocate f))
  | .list l e rest => (sameBuild_fullExpr e).bind fun a b hab =>
    (sameBuild_listTail rest).map fun as bs habs => by
      simpa [hab, habs] using H.span ((AtomicExpr.list l e rest).region_relocate f)

theorem sameBuild_listTail : ∀ l : ListTail, SameBuild h (List.map (Expr.mapSpans h))
    (buildListTail file (l.relocate f)) (buildListTail file l)
  | .close _ => .ok rfl
  | .more _ e rest => (sameBuild_fullExpr e).bind fun a b hab =>
    (sameBuild_listTail rest).map fun as bs habs => by simp [hab, habs]

theorem sameBuild_appliedExpr : ∀ e : AppliedExpr, SameBuild h (Expr.mapSpans h)
    (buildAppliedExpr file (e.relocate f)) (buildAppliedExpr file e)
  | .atom e => sameBuild_atomicExpr e
  | .app g a => (sameBuild_appliedExpr g).bind fun x y hxy =>
    (sameBuild_atomicExpr a).map fun x' y' hxy' => by
      simpa [hxy, hxy'] using H.span ((AppliedExpr.app g a).region_relocate f)

theorem sameBuild_operands : ∀ e : Operation,
    SameBuild h (Prod.map (Expr.mapSpans h) (List.map (Operand.mapSpans h)))
      (buildOperands file (e.relocate f)) (buildOperands file e)
  | .last e => (sameBuild_appliedExpr e).map fun a b hab => by simp [hab]
  | .more e op rest => (sameBuild_appliedExpr e).bind fun a b hab =>
    (sameBuild_operands rest).map fun r r' hr => by
      simp only [Prod.map, Prod.mk.injEq] at hr
      simp [hab, hr, OpRef.mapSpans, H.region]
  | .keyword e op last => (sameBuild_appliedExpr e).bind fun a b hab =>
    (sameBuild_keywordExpr last).map fun r r' hr => by
      simp [hab, hr, OpRef.mapSpans, H.region]

theorem sameBuild_keywordExpr : ∀ e : KeywordExpr, SameBuild h (Expr.mapSpans h)
    (buildKeywordExpr file (e.relocate f)) (buildKeywordExpr file e)
  | .lambda bs p ps arrow body => (sameBuild_atomicPat H p).bind fun a b hab =>
    (sameBuild_atomicPats H ps).bind fun as bs' habs =>
    (sameBuild_fullExpr body).map fun x y hxy => by
      simpa [hab, habs, hxy] using H.span ((KeywordExpr.lambda bs p ps arrow body).region_relocate f)
  | .letIn kw binds inKw body => (sameBuild_letBinds binds).bind fun as bs habs =>
    (sameBuild_fullExpr body).map fun x y hxy => by
      simpa [groupBindings, joinNeighbours_congr (Binding.join?_mapSpans H.cover) habs, hxy] using
        H.span ((KeywordExpr.letIn kw binds inKw body).region_relocate f)
  | .ifThenElse ifKw c thenKw y elseKw n => (sameBuild_fullExpr c).bind fun a b hab =>
    (sameBuild_fullExpr y).bind fun a' b' hab' =>
    (sameBuild_fullExpr n).map fun a'' b'' hab'' => by
      simpa [hab, hab', hab''] using
        H.span ((KeywordExpr.ifThenElse ifKw c thenKw y elseKw n).region_relocate f)
  | .caseOf kw s ofKw l alt rest => (sameBuild_caseAlt alt).bind fun a b hab =>
    (sameBuild_altTail rest).bind fun as bs habs =>
    (sameBuild_fullExpr s).map fun x y hxy => by
      simpa [hab, habs, hxy] using
        H.span ((KeywordExpr.caseOf kw s ofKw l alt rest).region_relocate f)

theorem sameBuild_fullExpr : ∀ e : FullExpr, SameBuild h (Expr.mapSpans h)
    (buildFullExpr file (e.relocate f)) (buildFullExpr file e)
  | .keyword e => sameBuild_keywordExpr e
  | .operation e => (sameBuild_operands e).map fun r r' hr => by
    have hloc := H.span (e.region_relocate f)
    obtain ⟨a, as⟩ := r
    obtain ⟨b, bs⟩ := r'
    simp only [Prod.map, Prod.mk.injEq] at hr
    cases as <;> cases bs <;> simp_all

theorem sameBuild_caseAlt : ∀ a : CaseAlt, SameBuild h (Alt.mapSpans h)
    (buildCaseAlt file (a.relocate f)) (buildCaseAlt file a)
  | .mk p arrow e => (sameBuild_fullPat H p).bind fun a b hab =>
    (sameBuild_fullExpr e).map fun x y hxy => by
      simpa [hab, hxy] using H.span ((CaseAlt.mk p arrow e).region_relocate f)

theorem sameBuild_altTail : ∀ l : AltTail, SameBuild h (List.map (Alt.mapSpans h))
    (buildAltTail file (l.relocate f)) (buildAltTail file l)
  | .close _ | .trailing _ _ => .ok rfl
  | .more _ a rest => (sameBuild_caseAlt a).bind fun a b hab =>
    (sameBuild_altTail rest).map fun as bs habs => by simp [hab, habs]

theorem sameBuild_letBinds : ∀ b : LetBinds, SameBuild h (List.map (Binding.mapSpans h))
    (buildLetBinds file (b.relocate f)) (buildLetBinds file b)
  | .single b => (sameBuild_letBind b).map fun a b hab => by simp [hab]
  | .block _ b rest => (sameBuild_letBind b).bind fun a b hab =>
    (sameBuild_letTail rest).map fun as bs habs => by simp [hab, habs]

theorem sameBuild_letTail : ∀ l : LetTail, SameBuild h (List.map (Binding.mapSpans h))
    (buildLetTail file (l.relocate f)) (buildLetTail file l)
  | .close _ | .trailing _ _ => .ok rfl
  | .more _ b rest => (sameBuild_letBind b).bind fun a b hab =>
    (sameBuild_letTail rest).map fun as bs habs => by simp [hab, habs]

theorem sameBuild_letBind : ∀ b : LetBind, SameBuild h (Binding.mapSpans h)
    (buildLetBind file (b.relocate f)) (buildLetBind file b)
  | .equation e => (sameBuild_equation e).map fun a b hab => by simp [hab]
  | .pattern e => (sameBuild_patEquation e).map fun a b hab => by simp [hab]

theorem sameBuild_equation : ∀ e : Equation, SameBuild h (FunBind.mapSpans h)
    (buildEquation file (e.relocate f)) (buildEquation file e)
  | .mk b ps eq e => (sameBuild_atomicPats H ps).bind fun as bs habs =>
    (sameBuild_fullExpr e).map fun x y hxy => by
      have hloc := H.span ((Equation.mk b ps eq e).region_relocate f)
      have hname := H.span (b.region_relocate f)
      simpa [habs, hxy, hname] using hloc

theorem sameBuild_patEquation : ∀ e : PatEquation, SameBuild h (PatBind.mapSpans h)
    (buildPatEquation file (e.relocate f)) (buildPatEquation file e)
  | .mk lhs eq e => (sameBuild_patLhs H lhs).bind fun a b hab =>
    (sameBuild_fullExpr e).map fun x y hxy => by
      simpa [hab, hxy] using H.span ((PatEquation.mk lhs eq e).region_relocate f)

end

-- Declarations and modules

theorem sameBuild_signature (s : Signature) : SameBuild h (TypeSig.mapSpans h)
    (buildSignature file (s.relocate f)) (buildSignature file s) :=
  (sameBuild_qualTy H s.ty).map fun a b hab => by
    have hnames (b : Binder) : h ((b.relocate f).region.span file) = h (b.region.span file) :=
      H.span (b.region_relocate f)
    have hloc : h (spanOf file (s.relocate f).yield) = h (spanOf file s.yield) := by
      rw [s.yield_relocate, H.spanOf]
    simpa [TypeSig.mapSpans, hab, hnames, Signature.relocate] using hloc

theorem sameBuild_constructor (c : Constructor) : SameBuild h (ConDecl.mapSpans h)
    (buildConstructor file (c.relocate f)) (buildConstructor file c) :=
  (SameBuild.mapM (AtomicTy.relocate f) (sameBuild_atomicTy H) c.args).map fun a b hab => by
    have hloc : h (spanOf file (c.relocate f).yield) = h (spanOf file c.yield) := by
      rw [c.yield_relocate, H.spanOf]
    simpa [ConDecl.mapSpans, hab, Constructor.relocate] using hloc

omit H in
@[simp]
theorem fixityAssoc_relocate (kw : FixityKeyword) :
    fixityAssoc (kw.relocate f) = fixityAssoc kw := by
  cases kw <;> rfl

theorem sameBuild_decl (d : Concrete.Decl) : SameBuild h (Decl.mapSpans h)
    (buildDecl file (d.relocate f)) (buildDecl file d) := by
  have hloc : h (spanOf file (d.relocate f).yield) = h (spanOf file d.yield) := by
    rw [d.yield_relocate, H.spanOf]
  unfold buildDecl
  generalize spanOf file (d.relocate f).yield = l at hloc ⊢
  generalize spanOf file d.yield = l' at hloc ⊢
  cases d with
  | data kw n vs cons =>
    have hcons := SameBuild.mapM (Constructor.relocate f) (sameBuild_constructor H)
      (cons.elim [] fun p => p.2.items)
    have hitems : (cons.map fun p => (p.1.relocate f, p.2.relocate f (Constructor.relocate f))).elim
        [] (fun p => p.2.items) = (cons.elim [] fun p => p.2.items).map (Constructor.relocate f) := by
      cases cons <;> simp
    rw [← hitems] at hcons
    exact hcons.map fun as bs habs => by
      simp [Decl.mapSpans, habs, hloc, H.region, Function.comp_def]
  | signature s =>
    exact (sameBuild_signature H s).map fun a b hab => by
      simp [Decl.mapSpans, hab]
  | primitive kw s =>
    exact (sameBuild_signature H s).map fun a b hab => by
      simp [Decl.mapSpans, hab, hloc]
  | fixity kw p ops =>
    refine (SameBuild.refl (g := id) (buildInt p.text)).bind fun a b hab => ?_
    cases (show a = b from hab)
    split
    · exact .misuse hloc
    · exact .ok (by simp [Decl.mapSpans, hloc, Function.comp_def])
  | typeClass kw n v body =>
    have hsigs := SameBuild.mapM (Signature.relocate f) (sameBuild_signature H)
      (body.elim [] Block.toList)
    have hitems : (body.map (Block.relocate f (Signature.relocate f))).elim [] Block.toList =
        (body.elim [] Block.toList).map (Signature.relocate f) := by
      cases body <;> simp
    rw [← hitems] at hsigs
    exact hsigs.map fun as bs habs => by
      simp [Decl.mapSpans, habs, hloc, H.region]
  | inst kw head body =>
    have heqs := SameBuild.mapM (Equation.relocate f) (sameBuild_equation H)
      (body.elim [] Block.toList)
    have hitems : (body.map (Block.relocate f (Equation.relocate f))).elim [] Block.toList =
        (body.elim [] Block.toList).map (Equation.relocate f) := by
      cases body <;> simp
    rw [← hitems] at heqs
    refine (sameBuild_qualTy H head).bind fun q q' hq => ?_
    simp only [QualType.mapSpans, QualType.mk.injEq] at hq
    obtain ⟨hcontext, hbody, hq⟩ := hq
    split
    · rename_i heq
      rw [heq] at hbody
      obtain ⟨arg, _, heq', harg, -⟩ := TypeExpr.eq_con_of_mapSpans_eq hbody.symm
      rw [heq']
      exact heqs.map fun as bs habs => by
        simp [Decl.mapSpans, hcontext, harg, hloc, groupEquations,
          joinNeighbours_congr (FunBind.join?_mapSpans H.cover) habs]
    · rename_i hne
      split
      · rename_i heq
        rw [heq] at hbody
        obtain ⟨_, _, heq', -, -⟩ := TypeExpr.eq_con_of_mapSpans_eq hbody
        exact absurd heq' (hne _ _ _)
      · exact .misuse hq
  | equation e =>
    exact (sameBuild_equation H e).map fun a b hab => by
      simp [Decl.mapSpans, hab]
  | pattern e =>
    exact (sameBuild_patEquation H e).map fun a b hab => by
      simp [Decl.mapSpans, hab]

theorem sameBuild_topDecl {p q : Progress} (hpq : p.mapSpans h = q.mapSpans h) (d : TopDecl) :
    SameBuild h (Progress.mapSpans h)
      (buildTopDecl file p (d.relocate f)) (buildTopDecl file q d) := by
  have hloc : h (spanOf file (d.relocate f).yield) = h (spanOf file d.yield) := by
    rw [d.yield_relocate, H.spanOf]
  simp only [Progress.mapSpans, Progress.mk.injEq] at hpq
  obtain ⟨hheader, himports, hdecls⟩ := hpq
  have hsome : p.header.isSome = q.header.isSome := by
    simpa using congrArg Option.isSome hheader
  have hempty : p.imports.isEmpty = q.imports.isEmpty := by
    simpa using congrArg List.isEmpty himports
  have hempty' : p.decls.isEmpty = q.decls.isEmpty := by
    simpa using congrArg List.isEmpty hdecls
  unfold buildTopDecl
  generalize spanOf file (d.relocate f).yield = l at hloc ⊢
  generalize spanOf file d.yield = l' at hloc ⊢
  cases d with
  | header kw n =>
    simp only [TopDecl.relocate, hsome, hempty, hempty']
    split
    · exact .misuse hloc
    · exact .ok (by simp [Progress.mapSpans, himports, hdecls, hloc])
  | importDecl kw n =>
    simp only [TopDecl.relocate, hempty']
    split
    · exact .misuse hloc
    · exact .ok (by simp [Progress.mapSpans, hheader, himports, hdecls, ImportDecl.mapSpans, hloc])
  | decl d =>
    exact (sameBuild_decl H d).map fun a b hab => by
      simp [Progress.mapSpans, hheader, himports, hdecls, hab]

theorem sameBuild_topDecls (ds : List TopDecl) {p q : Progress}
    (hpq : p.mapSpans h = q.mapSpans h) : SameBuild h (Progress.mapSpans h)
      ((ds.map (TopDecl.relocate f)).foldlM (buildTopDecl file) p)
      (ds.foldlM (buildTopDecl file) q) := by
  induction ds generalizing p q with
  | nil => exact .ok hpq
  | cons d ds ih =>
    rw [List.map_cons, List.foldlM_cons, List.foldlM_cons]
    exact (sameBuild_topDecl H hpq d).bind fun a b hab => ih hab

theorem sameBuild_module (m : Concrete.Module) : SameBuild h (Module.mapSpans h)
    (buildModule file (m.relocate f)) (buildModule file m) := by
  have hloc : h (spanOf file (m.relocate f).yield) = h (spanOf file m.yield) := by
    rw [m.yield_relocate, H.spanOf]
  unfold buildModule
  rw [m.toList_relocate]
  refine (sameBuild_topDecls H m.toList rfl).map fun p q hpq => ?_
  simp only [Progress.mapSpans, Progress.mk.injEq] at hpq
  obtain ⟨hheader, himports, hdecls⟩ := hpq
  have hgrouped := joinNeighbours_congr (Decl.join?_mapSpans H.cover) hdecls
  cases hp : p.header <;> cases hq : q.header <;>
    simp_all [Module.mapSpans, groupDecls]

/-- Modules that are alike but for the places of their tokens build alike. -/
theorem buildModule_congr {m m' : Concrete.Module} (hm : m'.relocate f = m.relocate f) :
    (buildModule file m').toOption.map (Module.mapSpans h) =
      (buildModule file m).toOption.map (Module.mapSpans h) := by
  rw [← (sameBuild_module H m').toOption, hm, (sameBuild_module H m).toOption]

end Builds

-- Texts

section Texts

variable {w w' : Int} {file : Option String} {source source' : String} {f : Position → Position}

/-- Two texts give the grammar the same tokens, but for what `f` forgets of their positions. -/
def SameTokens (f : Position → Position) (w w' : Int) (source source' : String) : Prop :=
  let l := Lex.lex source.toList
  let l' := Lex.lex source'.toList
  l'.failure.isSome = l.failure.isSome ∧
    (layoutTokens w' l').map (Token.relocate f) = (layoutTokens w l).map (Token.relocate f)

theorem SameTokens.symm (h : SameTokens f w w' source source') :
    SameTokens f w' w source' source := ⟨h.1.symm, h.2.symm⟩

theorem SameTokens.readModule (h : SameTokens f w w' source source') {c : Concrete.Module}
    (hc : readModule w source = .ok c) :
    ∃ c' : Concrete.Module, Surface.readModule w' source' = .ok c' ∧
      c'.relocate f = c.relocate f := by
  obtain ⟨hfail, hts⟩ := h
  obtain ⟨hnone, hyield⟩ := readModule_eq_ok_iff.mp hc
  rw [hnone] at hfail
  have hnone' : (Lex.lex source'.toList).failure = none := by simpa using hfail
  rw [layoutTokens, layoutTokens, hnone, hnone'] at hts
  obtain ⟨c', hy, hr⟩ := Module.parse_congr hts hyield
  exact ⟨c', readModule_eq_ok_iff.mpr ⟨hnone', hy⟩, hr⟩

theorem toOption_parseModule (hw : Layout.isMeasurable w) :
    (parseModule w file source).toOption =
      (readModule w source).toOption.bind fun c => (buildModule file c).toOption := by
  unfold parseModule
  rw [if_pos hw]
  cases readModule w source with
  | error e => rfl
  | ok c => cases hb : buildModule file c <;> simp [Except.mapError, Except.toOption, hb]

/-- Texts with the same tokens both fail, or are the same module but for spans. -/
theorem SameTokens.parseModule {h : Span → Span} (H : Forgets file f h)
    (hs : SameTokens f w w' source source') (hw : Layout.isMeasurable w)
    (hw' : Layout.isMeasurable w') :
    (Surface.parseModule w' file source').toOption.map (Module.mapSpans h) =
      (Surface.parseModule w file source).toOption.map (Module.mapSpans h) := by
  rw [toOption_parseModule hw, toOption_parseModule hw']
  cases hc : Surface.readModule w source with
  | ok c =>
    obtain ⟨c', hc', hr⟩ := hs.readModule hc
    rw [hc']
    exact buildModule_congr H hr
  | error e =>
    cases hc' : Surface.readModule w' source' with
    | error e' => rfl
    | ok c' =>
      obtain ⟨c, hok, -⟩ := hs.symm.readModule hc'
      rw [hc] at hok
      cases hok

end Texts

-- What can be forgotten

/-- Only whether there is a line is left of it. -/
def dropLine (p : Position) : Position := ⟨min p.line 1, p.column⟩

def dropLines (s : Span) : Span :=
  { s with line := s.line.map (min · 1), endLine := s.endLine.map (min · 1) }

theorem good_dropLines (s : Span) : (dropLines s).good = s.good := by
  rcases s with ⟨file, _ | line, _ | column, _ | endLine, _ | endColumn⟩ <;> try rfl
  have hline : 0 < min line 1 ↔ 0 < line := by omega
  simp only [dropLines, Span.good, Span.extent, Option.map_some, hline]
  split <;> rfl

theorem forgets_dropLine (file : Option String) : Forgets file dropLine dropLines where
  region r := by
    have hcast (n : Nat) : ((min n 1 : Nat) : Int) = min (n : Int) 1 := by omega
    have hmin (i : Int) : min (min i 1) 1 = min i 1 := by omega
    simp only [dropLines, dropLine, Region.relocate, Region.span, Option.map_some, hcast, hmin]
  cover a b := by
    unfold Span.cover
    rw [good_dropLines, good_dropLines]
    repeat' split
    all_goals rfl

/-- Nothing is left of a position or a span. -/
theorem forgets_all (file : Option String) :
    Forgets file (fun _ => .first) (fun _ => .unknown) where
  region _ := rfl
  cover _ _ := rfl

end TypeLens.Surface
