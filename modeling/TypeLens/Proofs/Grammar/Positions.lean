import TypeLens.Proofs.Grammar.Exact
import TypeLens.Proofs.Grammar.Modules

/-!
Positions do not matter for reading: trees of tokens of the same kinds have the same shape, and where
the tokens are alike but for their positions, so are the trees.
-/

namespace TypeLens

variable (f : Position → Position)

def Region.relocate (r : Region) : Region := ⟨f r.start, f r.stop⟩

@[simp]
theorem Region.relocate_through (a b : Region) :
    (a.through b).relocate f = (a.relocate f).through (b.relocate f) := rfl

def Token.relocate (t : Token) : Token := { t with region := t.region.relocate f }

@[simp]
theorem Token.kind_relocate (t : Token) : (t.relocate f).kind = t.kind := rfl

variable {f} in
theorem Token.kind_eq_of_relocate_eq {t u : Token} (h : u.relocate f = t.relocate f) :
    u.kind = t.kind := by
  simpa using congrArg Token.kind h

namespace Concrete

def Tok.relocate {k : Terminal} (t : Tok k) : Tok k := { t with region := t.region.relocate f }

@[simp]
theorem Tok.token_relocate {k : Terminal} (t : Tok k) :
    (t.relocate f).token = t.token.relocate f := rfl

@[simp]
theorem Tok.region_relocate {k : Terminal} (t : Tok k) :
    (t.relocate f).region = t.region.relocate f := rfl

@[simp]
theorem Tok.text_relocate {k : Terminal} (t : Tok k) : (t.relocate f).text = t.text := rfl

-- Types

mutual

@[simp]
def AtomicTy.relocate : AtomicTy → AtomicTy
  | .con n => .con (n.relocate f)
  | .var n => .var (n.relocate f)
  | .list l t r => .list (l.relocate f) t.relocate (r.relocate f)
  | .paren l t r => .paren (l.relocate f) t.relocate (r.relocate f)
  | .tuple l t c rest => .tuple (l.relocate f) t.relocate (c.relocate f) rest.relocate

@[simp]
def TupleTail.relocate : TupleTail → TupleTail
  | .last t r => .last t.relocate (r.relocate f)
  | .more t c rest => .more t.relocate (c.relocate f) rest.relocate

@[simp]
def AppliedTy.relocate : AppliedTy → AppliedTy
  | .atom t => .atom t.relocate
  | .app g a => .app g.relocate a.relocate

@[simp]
def FullTy.relocate : FullTy → FullTy
  | .plain t => .plain t.relocate
  | .fn a arrow r => .fn a.relocate (arrow.relocate f) r.relocate

end

mutual

@[simp]
theorem AtomicTy.yield_relocate : ∀ t : AtomicTy,
    (t.relocate f).yield = t.yield.map (Token.relocate f)
  | .con _ | .var _ => by simp [AtomicTy.yield]
  | .list _ t _ | .paren _ t _ => by simp [AtomicTy.yield, t.yield_relocate]
  | .tuple _ t _ rest => by simp [AtomicTy.yield, t.yield_relocate, rest.yield_relocate]

@[simp]
theorem TupleTail.yield_relocate : ∀ t : TupleTail,
    (t.relocate f).yield = t.yield.map (Token.relocate f)
  | .last t _ => by simp [TupleTail.yield, t.yield_relocate]
  | .more t _ rest => by simp [TupleTail.yield, t.yield_relocate, rest.yield_relocate]

@[simp]
theorem AppliedTy.yield_relocate : ∀ t : AppliedTy,
    (t.relocate f).yield = t.yield.map (Token.relocate f)
  | .atom t => by simp [AppliedTy.yield, t.yield_relocate]
  | .app g a => by simp [AppliedTy.yield, g.yield_relocate, a.yield_relocate]

@[simp]
theorem FullTy.yield_relocate : ∀ t : FullTy,
    (t.relocate f).yield = t.yield.map (Token.relocate f)
  | .plain t => by simp [FullTy.yield, t.yield_relocate]
  | .fn a _ r => by simp [FullTy.yield, a.yield_relocate, r.yield_relocate]

end

@[simp]
theorem TupleTail.closing_relocate : ∀ t : TupleTail,
    (t.relocate f).closing = t.closing.relocate f
  | .last _ _ => rfl
  | .more _ _ rest => rest.closing_relocate

@[simp]
theorem TupleTail.items_relocate : ∀ t : TupleTail,
    (t.relocate f).items = t.items.map (FullTy.relocate f)
  | .last _ _ => rfl
  | .more _ _ rest => by simp [TupleTail.items, rest.items_relocate]

theorem AtomicTy.region_relocate (t : AtomicTy) : (t.relocate f).region = t.region.relocate f := by
  cases t <;> simp [AtomicTy.region]

theorem AppliedTy.region_relocate : ∀ t : AppliedTy, (t.relocate f).region = t.region.relocate f
  | .atom t => t.region_relocate f
  | .app g a => by simp [AppliedTy.region, g.region_relocate, a.region_relocate]

theorem FullTy.region_relocate : ∀ t : FullTy, (t.relocate f).region = t.region.relocate f
  | .plain t => t.region_relocate f
  | .fn a _ r => by simp [FullTy.region, a.region_relocate, r.region_relocate]

def QualTy.relocate : QualTy → QualTy
  | .plain t => .plain (t.relocate f)
  | .qualified c arrow t => .qualified (c.relocate f) (arrow.relocate f) (t.relocate f)

@[simp]
theorem QualTy.yield_relocate (q : QualTy) :
    (q.relocate f).yield = q.yield.map (Token.relocate f) := by
  cases q <;> simp [QualTy.relocate, QualTy.yield]

theorem QualTy.region_relocate (q : QualTy) : (q.relocate f).region = q.region.relocate f := by
  cases q <;> simp [QualTy.relocate, QualTy.region, FullTy.region_relocate, AppliedTy.region_relocate]

-- Patterns

mutual

@[simp]
def AtomicPat.relocate : AtomicPat → AtomicPat
  | .var n => .var (n.relocate f)
  | .wild t => .wild (t.relocate f)
  | .con n => .con (n.relocate f)
  | .int t => .int (t.relocate f)
  | .string t => .string (t.relocate f)
  | .nil l r => .nil (l.relocate f) (r.relocate f)
  | .paren l p r => .paren (l.relocate f) p.relocate (r.relocate f)

@[simp]
def AtomicPats.relocate : AtomicPats → AtomicPats
  | .nil => .nil
  | .cons p rest => .cons p.relocate rest.relocate

@[simp]
def AppliedPat.relocate : AppliedPat → AppliedPat
  | .atom p => .atom p.relocate
  | .app c p rest => .app (c.relocate f) p.relocate rest.relocate

@[simp]
def FullPat.relocate : FullPat → FullPat
  | .plain p => .plain p.relocate
  | .infixed l op r => .infixed l.relocate (op.relocate f) r.relocate

end

mutual

@[simp]
theorem AtomicPat.yield_relocate : ∀ p : AtomicPat,
    (p.relocate f).yield = p.yield.map (Token.relocate f)
  | .var _ | .wild _ | .con _ | .int _ | .string _ | .nil _ _ => by simp [AtomicPat.yield]
  | .paren _ p _ => by simp [AtomicPat.yield, p.yield_relocate]

@[simp]
theorem AtomicPats.yield_relocate : ∀ ps : AtomicPats,
    (ps.relocate f).yield = ps.yield.map (Token.relocate f)
  | .nil => rfl
  | .cons p rest => by simp [AtomicPats.yield, p.yield_relocate, rest.yield_relocate]

@[simp]
theorem AppliedPat.yield_relocate : ∀ p : AppliedPat,
    (p.relocate f).yield = p.yield.map (Token.relocate f)
  | .atom p => by simp [AppliedPat.yield, p.yield_relocate]
  | .app _ p rest => by simp [AppliedPat.yield, p.yield_relocate, rest.yield_relocate]

@[simp]
theorem FullPat.yield_relocate : ∀ p : FullPat,
    (p.relocate f).yield = p.yield.map (Token.relocate f)
  | .plain p => by simp [FullPat.yield, p.yield_relocate]
  | .infixed l _ r => by simp [FullPat.yield, l.yield_relocate, r.yield_relocate]

end

theorem AtomicPat.region_relocate (p : AtomicPat) : (p.relocate f).region = p.region.relocate f := by
  cases p <;> simp [AtomicPat.region]

@[simp]
theorem AtomicPats.extend_relocate : ∀ (ps : AtomicPats) (r : Region),
    (ps.relocate f).extend (r.relocate f) = (ps.extend r).relocate f
  | .nil, _ => rfl
  | .cons p rest, r => by
    rw [relocate, extend, extend, p.region_relocate, ← Region.relocate_through,
      rest.extend_relocate]

theorem AppliedPat.region_relocate (p : AppliedPat) :
    (p.relocate f).region = p.region.relocate f := by
  cases p with
  | atom p => exact p.region_relocate f
  | app c p rest =>
    rw [AppliedPat.relocate, AppliedPat.region, AppliedPat.region, c.region_relocate,
      p.region_relocate, ← Region.relocate_through, rest.extend_relocate]

theorem FullPat.region_relocate : ∀ p : FullPat, (p.relocate f).region = p.region.relocate f
  | .plain p => p.region_relocate f
  | .infixed l _ r => by simp [FullPat.region, l.region_relocate, r.region_relocate]

-- Expressions

def Binder.relocate : Binder → Binder
  | .var n => .var (n.relocate f)
  | .op l n r => .op (l.relocate f) (n.relocate f) (r.relocate f)

@[simp]
theorem Binder.yield_relocate (b : Binder) :
    (b.relocate f).yield = b.yield.map (Token.relocate f) := by
  cases b <;> simp [Binder.relocate, Binder.yield]

theorem Binder.region_relocate (b : Binder) : (b.relocate f).region = b.region.relocate f := by
  cases b <;> simp [Binder.relocate, Binder.region]

def PatLhs.relocate : PatLhs → PatLhs
  | .con n args => .con (n.relocate f) (args.relocate f)
  | .paren l p r => .paren (l.relocate f) (p.relocate f) (r.relocate f)

@[simp]
theorem PatLhs.yield_relocate (l : PatLhs) :
    (l.relocate f).yield = l.yield.map (Token.relocate f) := by
  cases l <;> simp [PatLhs.relocate, PatLhs.yield]

theorem PatLhs.region_relocate (l : PatLhs) : (l.relocate f).region = l.region.relocate f := by
  cases l <;> simp [PatLhs.relocate, PatLhs.region]

mutual

@[simp]
def AtomicExpr.relocate : AtomicExpr → AtomicExpr
  | .var n => .var (n.relocate f)
  | .con n => .con (n.relocate f)
  | .op l n r => .op (l.relocate f) (n.relocate f) (r.relocate f)
  | .int t => .int (t.relocate f)
  | .string t => .string (t.relocate f)
  | .paren l e r => .paren (l.relocate f) e.relocate (r.relocate f)
  | .nil l r => .nil (l.relocate f) (r.relocate f)
  | .list l e rest => .list (l.relocate f) e.relocate rest.relocate

@[simp]
def ListTail.relocate : ListTail → ListTail
  | .close r => .close (r.relocate f)
  | .more c e rest => .more (c.relocate f) e.relocate rest.relocate

@[simp]
def AppliedExpr.relocate : AppliedExpr → AppliedExpr
  | .atom e => .atom e.relocate
  | .app g a => .app g.relocate a.relocate

@[simp]
def Operation.relocate : Operation → Operation
  | .last e => .last e.relocate
  | .more e op rest => .more e.relocate (op.relocate f) rest.relocate
  | .keyword e op last => .keyword e.relocate (op.relocate f) last.relocate

@[simp]
def KeywordExpr.relocate : KeywordExpr → KeywordExpr
  | .lambda bs p rest arrow body =>
    .lambda (bs.relocate f) (p.relocate f) (rest.relocate f) (arrow.relocate f) body.relocate
  | .letIn kw binds inKw body =>
    .letIn (kw.relocate f) binds.relocate (inKw.relocate f) body.relocate
  | .ifThenElse ifKw c thenKw y elseKw n =>
    .ifThenElse (ifKw.relocate f) c.relocate (thenKw.relocate f) y.relocate (elseKw.relocate f)
      n.relocate
  | .caseOf kw s ofKw l alt rest =>
    .caseOf (kw.relocate f) s.relocate (ofKw.relocate f) (l.relocate f) alt.relocate rest.relocate

@[simp]
def FullExpr.relocate : FullExpr → FullExpr
  | .operation e => .operation e.relocate
  | .keyword e => .keyword e.relocate

@[simp]
def CaseAlt.relocate : CaseAlt → CaseAlt
  | .mk p arrow e => .mk (p.relocate f) (arrow.relocate f) e.relocate

@[simp]
def AltTail.relocate : AltTail → AltTail
  | .close r => .close (r.relocate f)
  | .trailing s r => .trailing (s.relocate f) (r.relocate f)
  | .more s alt rest => .more (s.relocate f) alt.relocate rest.relocate

@[simp]
def LetBinds.relocate : LetBinds → LetBinds
  | .single b => .single b.relocate
  | .block l b rest => .block (l.relocate f) b.relocate rest.relocate

@[simp]
def LetTail.relocate : LetTail → LetTail
  | .close r => .close (r.relocate f)
  | .trailing s r => .trailing (s.relocate f) (r.relocate f)
  | .more s b rest => .more (s.relocate f) b.relocate rest.relocate

@[simp]
def LetBind.relocate : LetBind → LetBind
  | .equation e => .equation e.relocate
  | .pattern e => .pattern e.relocate

@[simp]
def Equation.relocate : Equation → Equation
  | .mk b ps eq e => .mk (b.relocate f) (ps.relocate f) (eq.relocate f) e.relocate

@[simp]
def PatEquation.relocate : PatEquation → PatEquation
  | .mk lhs eq e => .mk (lhs.relocate f) (eq.relocate f) e.relocate

end

mutual

@[simp]
theorem AtomicExpr.yield_relocate : ∀ e : AtomicExpr,
    (e.relocate f).yield = e.yield.map (Token.relocate f)
  | .var _ | .con _ | .op .. | .int _ | .string _ | .nil _ _ => by simp [AtomicExpr.yield]
  | .paren _ e _ => by simp [AtomicExpr.yield, e.yield_relocate]
  | .list _ e rest => by simp [AtomicExpr.yield, e.yield_relocate, rest.yield_relocate]

@[simp]
theorem ListTail.yield_relocate : ∀ l : ListTail,
    (l.relocate f).yield = l.yield.map (Token.relocate f)
  | .close _ => by simp [ListTail.yield]
  | .more _ e rest => by simp [ListTail.yield, e.yield_relocate, rest.yield_relocate]

@[simp]
theorem AppliedExpr.yield_relocate : ∀ e : AppliedExpr,
    (e.relocate f).yield = e.yield.map (Token.relocate f)
  | .atom e => by simp [AppliedExpr.yield, e.yield_relocate]
  | .app g a => by simp [AppliedExpr.yield, g.yield_relocate, a.yield_relocate]

@[simp]
theorem Operation.yield_relocate : ∀ e : Operation,
    (e.relocate f).yield = e.yield.map (Token.relocate f)
  | .last e => by simp [Operation.yield, e.yield_relocate]
  | .more e _ rest => by simp [Operation.yield, e.yield_relocate, rest.yield_relocate]
  | .keyword e _ last => by simp [Operation.yield, e.yield_relocate, last.yield_relocate]

@[simp]
theorem KeywordExpr.yield_relocate : ∀ e : KeywordExpr,
    (e.relocate f).yield = e.yield.map (Token.relocate f)
  | .lambda _ _ _ _ body => by simp [KeywordExpr.yield, body.yield_relocate]
  | .letIn _ binds _ body => by
    simp [KeywordExpr.yield, binds.yield_relocate, body.yield_relocate]
  | .ifThenElse _ c _ y _ n => by
    simp [KeywordExpr.yield, c.yield_relocate, y.yield_relocate, n.yield_relocate]
  | .caseOf _ s _ _ alt rest => by
    simp [KeywordExpr.yield, s.yield_relocate, alt.yield_relocate, rest.yield_relocate]

@[simp]
theorem FullExpr.yield_relocate : ∀ e : FullExpr,
    (e.relocate f).yield = e.yield.map (Token.relocate f)
  | .operation e => by simp [FullExpr.yield, e.yield_relocate]
  | .keyword e => by simp [FullExpr.yield, e.yield_relocate]

@[simp]
theorem CaseAlt.yield_relocate : ∀ a : CaseAlt,
    (a.relocate f).yield = a.yield.map (Token.relocate f)
  | .mk _ _ e => by simp [CaseAlt.yield, e.yield_relocate]

@[simp]
theorem AltTail.yield_relocate : ∀ l : AltTail,
    (l.relocate f).yield = l.yield.map (Token.relocate f)
  | .close _ | .trailing _ _ => by simp [AltTail.yield]
  | .more _ alt rest => by simp [AltTail.yield, alt.yield_relocate, rest.yield_relocate]

@[simp]
theorem LetBinds.yield_relocate : ∀ b : LetBinds,
    (b.relocate f).yield = b.yield.map (Token.relocate f)
  | .single b => by simp [LetBinds.yield, b.yield_relocate]
  | .block _ b rest => by simp [LetBinds.yield, b.yield_relocate, rest.yield_relocate]

@[simp]
theorem LetTail.yield_relocate : ∀ l : LetTail,
    (l.relocate f).yield = l.yield.map (Token.relocate f)
  | .close _ | .trailing _ _ => by simp [LetTail.yield]
  | .more _ b rest => by simp [LetTail.yield, b.yield_relocate, rest.yield_relocate]

@[simp]
theorem LetBind.yield_relocate : ∀ b : LetBind,
    (b.relocate f).yield = b.yield.map (Token.relocate f)
  | .equation e => by simp [LetBind.yield, e.yield_relocate]
  | .pattern e => by simp [LetBind.yield, e.yield_relocate]

@[simp]
theorem Equation.yield_relocate : ∀ e : Equation,
    (e.relocate f).yield = e.yield.map (Token.relocate f)
  | .mk _ _ _ e => by simp [Equation.yield, e.yield_relocate]

@[simp]
theorem PatEquation.yield_relocate : ∀ e : PatEquation,
    (e.relocate f).yield = e.yield.map (Token.relocate f)
  | .mk _ _ e => by simp [PatEquation.yield, e.yield_relocate]

end

@[simp]
theorem ListTail.closing_relocate : ∀ l : ListTail, (l.relocate f).closing = l.closing.relocate f
  | .close _ => rfl
  | .more _ _ rest => rest.closing_relocate

@[simp]
theorem AltTail.closing_relocate : ∀ l : AltTail, (l.relocate f).closing = l.closing.relocate f
  | .close _ | .trailing _ _ => rfl
  | .more _ _ rest => rest.closing_relocate

theorem AtomicExpr.region_relocate (e : AtomicExpr) :
    (e.relocate f).region = e.region.relocate f := by
  cases e <;> simp [AtomicExpr.region]

theorem AppliedExpr.region_relocate : ∀ e : AppliedExpr,
    (e.relocate f).region = e.region.relocate f
  | .atom e => e.region_relocate f
  | .app g a => by simp [AppliedExpr.region, g.region_relocate, a.region_relocate]

mutual

theorem Operation.region_relocate : ∀ e : Operation, (e.relocate f).region = e.region.relocate f
  | .last e => by simp [Operation.region, e.region_relocate]
  | .more e _ rest => by simp [Operation.region, e.region_relocate, rest.region_relocate]
  | .keyword e _ last => by simp [Operation.region, e.region_relocate, last.region_relocate]

theorem KeywordExpr.region_relocate : ∀ e : KeywordExpr,
    (e.relocate f).region = e.region.relocate f
  | .lambda _ _ _ _ body => by simp [KeywordExpr.region, body.region_relocate]
  | .letIn _ _ _ body => by simp [KeywordExpr.region, body.region_relocate]
  | .ifThenElse _ _ _ _ _ n => by simp [KeywordExpr.region, n.region_relocate]
  | .caseOf _ _ _ _ _ _ => by simp [KeywordExpr.region]

theorem FullExpr.region_relocate : ∀ e : FullExpr, (e.relocate f).region = e.region.relocate f
  | .operation e => by simp [FullExpr.region, e.region_relocate]
  | .keyword e => by simp [FullExpr.region, e.region_relocate]

end

theorem CaseAlt.region_relocate (a : CaseAlt) : (a.relocate f).region = a.region.relocate f := by
  cases a
  simp [CaseAlt.region, FullPat.region_relocate, FullExpr.region_relocate]

theorem Equation.region_relocate (e : Equation) : (e.relocate f).region = e.region.relocate f := by
  cases e
  simp [Equation.region, Binder.region_relocate, FullExpr.region_relocate]

theorem PatEquation.region_relocate (e : PatEquation) :
    (e.relocate f).region = e.region.relocate f := by
  cases e
  simp [PatEquation.region, PatLhs.region_relocate, FullExpr.region_relocate]

-- Declarations and modules

def SepBy.relocate {sep : Terminal} {α : Type} (g : α → α) (s : SepBy sep α) : SepBy sep α :=
  ⟨g s.first, s.more.map fun p => (p.1.relocate f, g p.2)⟩

@[simp]
theorem SepBy.items_relocate {sep : Terminal} {α : Type} (g : α → α) (s : SepBy sep α) :
    (s.relocate f g).items = s.items.map g := by
  simp [SepBy.relocate, SepBy.items]

theorem SepBy.yield_relocate {sep : Terminal} {α : Type} {g : α → α} {y : α → List Token}
    (h : ∀ a, y (g a) = (y a).map (Token.relocate f)) (s : SepBy sep α) :
    (s.relocate f g).yield y = (s.yield y).map (Token.relocate f) := by
  simp [SepBy.relocate, SepBy.yield, h, List.flatMap_map, List.map_flatMap]

def Signature.relocate (s : Signature) : Signature :=
  ⟨s.binders.relocate f (Binder.relocate f), s.colons.relocate f, s.ty.relocate f⟩

@[simp]
theorem Signature.yield_relocate (s : Signature) :
    (s.relocate f).yield = s.yield.map (Token.relocate f) := by
  simp [Signature.relocate, Signature.yield, SepBy.yield_relocate f (Binder.yield_relocate f)]

def Constructor.relocate (c : Constructor) : Constructor :=
  ⟨c.name.relocate f, c.args.map (AtomicTy.relocate f)⟩

@[simp]
theorem Constructor.yield_relocate (c : Constructor) :
    (c.relocate f).yield = c.yield.map (Token.relocate f) := by
  simp [Constructor.relocate, Constructor.yield, List.flatMap_map, List.map_flatMap]

def FixityKeyword.relocate : FixityKeyword → FixityKeyword
  | .left t => .left (t.relocate f)
  | .right t => .right (t.relocate f)
  | .none t => .none (t.relocate f)

@[simp]
theorem FixityKeyword.yield_relocate (kw : FixityKeyword) :
    (kw.relocate f).yield = kw.yield.map (Token.relocate f) := by
  cases kw <;> simp [FixityKeyword.relocate, FixityKeyword.yield]

def Block.relocate {α : Type} (g : α → α) (b : Block α) : Block α :=
  ⟨b.kw.relocate f, b.opening.relocate f, b.items.map (SepBy.relocate f g), b.closing.relocate f⟩

@[simp]
theorem Block.toList_relocate {α : Type} (g : α → α) (b : Block α) :
    (b.relocate f g).toList = b.toList.map g := by
  cases h : b.items <;> simp [Block.relocate, Block.toList, h]

theorem Block.yield_relocate {α : Type} {g : α → α} {y : α → List Token}
    (h : ∀ a, y (g a) = (y a).map (Token.relocate f)) (b : Block α) :
    (b.relocate f g).yield y = (b.yield y).map (Token.relocate f) := by
  cases hi : b.items <;> simp [Block.relocate, Block.yield, hi, SepBy.yield_relocate f h]

def Decl.relocate : Decl → Decl
  | .data kw n vs cons => .data (kw.relocate f) (n.relocate f) (vs.map (Tok.relocate f))
      (cons.map fun p => (p.1.relocate f, p.2.relocate f (Constructor.relocate f)))
  | .signature s => .signature (s.relocate f)
  | .primitive kw s => .primitive (kw.relocate f) (s.relocate f)
  | .fixity kw p ops =>
    .fixity (kw.relocate f) (p.relocate f) (ops.relocate f (Tok.relocate f))
  | .typeClass kw n v body => .typeClass (kw.relocate f) (n.relocate f) (v.relocate f)
      (body.map (Block.relocate f (Signature.relocate f)))
  | .inst kw head body => .inst (kw.relocate f) (head.relocate f)
      (body.map (Block.relocate f (Equation.relocate f)))
  | .equation e => .equation (e.relocate f)
  | .pattern e => .pattern (e.relocate f)

@[simp]
theorem Decl.yield_relocate (d : Decl) :
    (d.relocate f).yield = d.yield.map (Token.relocate f) := by
  cases d with
  | data kw n vs cons =>
    cases cons <;>
      simp [Decl.relocate, Decl.yield, SepBy.yield_relocate f (Constructor.yield_relocate f), Function.comp_def]
  | signature s => simp [Decl.relocate, Decl.yield]
  | primitive kw s => simp [Decl.relocate, Decl.yield]
  | fixity kw p ops =>
    have hops := SepBy.yield_relocate f (g := Tok.relocate f) (y := fun t => [t.token])
      (fun _ => rfl) ops
    simp [Decl.relocate, Decl.yield, hops]
  | typeClass kw n v body =>
    cases body <;> simp [Decl.relocate, Decl.yield, Block.yield_relocate f (Signature.yield_relocate f)]
  | inst kw head body =>
    cases body <;> simp [Decl.relocate, Decl.yield, Block.yield_relocate f (Equation.yield_relocate f)]
  | equation e => simp [Decl.relocate, Decl.yield]
  | pattern e => simp [Decl.relocate, Decl.yield]

def TopDecl.relocate : TopDecl → TopDecl
  | .header kw n => .header (kw.relocate f) (n.relocate f)
  | .importDecl kw n => .importDecl (kw.relocate f) (n.relocate f)
  | .decl d => .decl (d.relocate f)

@[simp]
theorem TopDecl.yield_relocate (d : TopDecl) :
    (d.relocate f).yield = d.yield.map (Token.relocate f) := by
  cases d <;> simp [TopDecl.relocate, TopDecl.yield]

def Module.relocate (m : Module) : Module :=
  ⟨m.decls.map (SepBy.relocate f (TopDecl.relocate f))⟩

@[simp]
theorem Module.toList_relocate (m : Module) :
    (m.relocate f).toList = m.toList.map (TopDecl.relocate f) := by
  cases h : m.decls <;> simp [Module.relocate, Module.toList, h]

@[simp]
theorem Module.yield_relocate (m : Module) :
    (m.relocate f).yield = m.yield.map (Token.relocate f) := by
  cases h : m.decls <;>
    simp [Module.relocate, Module.yield, h, SepBy.yield_relocate f (TopDecl.yield_relocate f)]

end Concrete

-- Trees of tokens

namespace Grammar.Tree

mutual

/-- Other tokens of the same kinds can stand in the place of those of a tree. -/
theorem exists_yield_eq : ∀ (T : Tree) (us : List Token), T.Valid →
    us.map Token.kind = T.yield.map Token.kind →
    ∃ U : Tree, U.Valid ∧ U.symbol = T.symbol ∧ U.yield = us
  | .leaf t, us, _, h => by
    obtain ⟨u, rfl, hu⟩ := List.map_eq_singleton_iff.mp h
    exact ⟨.leaf u, .leaf u, by rw [symbol_leaf, symbol_leaf, hu], rfl⟩
  | .node A kids, us, .node hfits hkids, h => by
    obtain ⟨Us, hvalid, hsymbols, hyields⟩ := exists_yields_eq kids us hkids h
    refine ⟨.node A Us, .node ?_ hvalid, rfl, hyields⟩
    rw [Fits, hsymbols]
    exact hfits

theorem exists_yields_eq : ∀ (Ts : List Tree) (us : List Token), (∀ T ∈ Ts, T.Valid) →
    us.map Token.kind = (yields Ts).map Token.kind →
    ∃ Us : List Tree, (∀ U ∈ Us, U.Valid) ∧ Us.map symbol = Ts.map symbol ∧ yields Us = us
  | [], us, _, h => ⟨[], by simp, rfl, by simpa using h.symm⟩
  | T :: Ts, us, hv, h => by
    rw [yields, List.map_append] at h
    obtain ⟨vs, ws, rfl, hvs, hws⟩ := List.map_eq_append_iff.mp h
    obtain ⟨U, hU, hs, hy⟩ := exists_yield_eq T vs (hv T List.mem_cons_self) hvs
    obtain ⟨Us, hUs, hss, hys⟩ := exists_yields_eq Ts ws
      (fun V hV => hv V (List.mem_cons_of_mem T hV)) hws
    refine ⟨U :: Us, ?_, by simp [hs, hss], by simp [hy, hys]⟩
    rintro V (_ | ⟨_, hV⟩)
    · exact hU
    · exact hUs V hV

end

end Grammar.Tree

namespace Concrete

variable {f} {ts us : List Token}

open Grammar in
theorem derivable_of_kinds (h : us.map Token.kind = ts.map Token.kind) (hd : Derivable ts) :
    Derivable us := by
  obtain ⟨T, hv, hs, rfl⟩ := hd
  obtain ⟨U, hU, hsym, hy⟩ := T.exists_yield_eq us hv h
  exact ⟨U, hU, hsym.trans hs, hy⟩

/-- Tokens that are alike but for their positions are read alike. -/
theorem Module.parse_congr (h : us.map (Token.relocate f) = ts.map (Token.relocate f)) {m : Module}
    (hm : m.yield = ts) : ∃ m' : Module, m'.yield = us ∧ m'.relocate f = m.relocate f := by
  have hkinds : us.map Token.kind = ts.map Token.kind := by
    have := congrArg (List.map Token.kind) h
    simpa [Function.comp_def] using this
  obtain ⟨m', hm'⟩ := derivable_iff.mp (derivable_of_kinds hkinds (derivable_iff.mpr ⟨m, hm⟩))
  refine ⟨m', hm', ?_⟩
  have hy : (m'.relocate f).yield = (m.relocate f).yield := by
    rw [m'.yield_relocate, m.yield_relocate, hm, hm', h]
  have hparse := Module.parse_eq_ok_iff.mpr hy
  rw [Module.parse_eq_ok_iff.mpr rfl] at hparse
  exact (Except.ok.inj hparse).symm

end Concrete

end TypeLens
