import TypeLens.Proofs.Grammar.Derivations
import TypeLens.Proofs.Grammar.Modules

/-!
Concrete trees are the derivation trees of the grammar.
-/

namespace TypeLens.Concrete

open Grammar
open Grammar.Tree (Fits Valid)

def Tok.tree {k : Terminal} (t : Tok k) : Tree := .leaf t.token

def SepBy.trees {sep : Terminal} {α : Type} (f : α → Tree) (s : SepBy sep α) : List Tree :=
  f s.first :: s.more.flatMap fun p => [p.1.tree, f p.2]

mutual

@[simp]
def AtomicTy.tree : AtomicTy → Tree
  | .con n => .node .atype [n.tree]
  | .var n => .node .atype [n.tree]
  | .list l t r => .node .atype [l.tree, t.tree, r.tree]
  | .paren l t r => .node .atype [l.tree, t.tree, r.tree]
  | .tuple l t c rest => .node .atype (l.tree :: t.tree :: c.tree :: rest.trees)

@[simp]
def TupleTail.trees : TupleTail → List Tree
  | .last t r => [t.tree, r.tree]
  | .more t c rest => t.tree :: c.tree :: rest.trees

@[simp]
def AppliedTy.tree : AppliedTy → Tree
  | .atom t => .node .btype [t.tree]
  | .app f a => .node .btype [f.tree, a.tree]

@[simp]
def FullTy.tree : FullTy → Tree
  | .plain t => .node .type [t.tree]
  | .fn a arrow r => .node .type [a.tree, arrow.tree, r.tree]

end

def QualTy.tree : QualTy → Tree
  | .plain t => .node .qualType [t.tree]
  | .qualified c arrow t => .node .qualType [c.tree, arrow.tree, t.tree]

mutual

@[simp]
def AtomicPat.tree : AtomicPat → Tree
  | .var n => .node .apat [n.tree]
  | .wild t => .node .apat [t.tree]
  | .con n => .node .apat [n.tree]
  | .int t => .node .apat [t.tree]
  | .string t => .node .apat [t.tree]
  | .nil l r => .node .apat [l.tree, r.tree]
  | .paren l p r => .node .apat [l.tree, p.tree, r.tree]

@[simp]
def AtomicPats.trees : AtomicPats → List Tree
  | .nil => []
  | .cons p rest => p.tree :: rest.trees

@[simp]
def AppliedPat.tree : AppliedPat → Tree
  | .atom p => .node .lpat [p.tree]
  | .app c p rest => .node .lpat (c.tree :: p.tree :: rest.trees)

@[simp]
def FullPat.tree : FullPat → Tree
  | .plain p => .node .pat [p.tree]
  | .infixed l op r => .node .pat [l.tree, op.tree, r.tree]

end

def Binder.tree : Binder → Tree
  | .var n => .node .binder [n.tree]
  | .op l n r => .node .binder [l.tree, n.tree, r.tree]

def PatLhs.tree : PatLhs → Tree
  | .con n args => .node .patLhs (n.tree :: args.trees)
  | .paren l p r => .node .patLhs [l.tree, p.tree, r.tree]

mutual

@[simp]
def AtomicExpr.tree : AtomicExpr → Tree
  | .var n => .node .aexp [n.tree]
  | .con n => .node .aexp [n.tree]
  | .op l n r => .node .aexp [l.tree, n.tree, r.tree]
  | .int t => .node .aexp [t.tree]
  | .string t => .node .aexp [t.tree]
  | .paren l e r => .node .aexp [l.tree, e.tree, r.tree]
  | .nil l r => .node .aexp [l.tree, r.tree]
  | .list l e rest => .node .aexp (l.tree :: e.tree :: rest.trees)

@[simp]
def ListTail.trees : ListTail → List Tree
  | .close r => [r.tree]
  | .more c e rest => c.tree :: e.tree :: rest.trees

@[simp]
def AppliedExpr.tree : AppliedExpr → Tree
  | .atom e => .node .fexp [e.tree]
  | .app f a => .node .fexp [f.tree, a.tree]

@[simp]
def Operation.trees : Operation → List Tree
  | .last e => [e.tree]
  | .more e op rest => e.tree :: op.tree :: rest.trees
  | .keyword e op last => [e.tree, op.tree, last.tree]

@[simp]
def KeywordExpr.tree : KeywordExpr → Tree
  | .lambda bs p rest arrow body =>
    .node .kwExpr (bs.tree :: p.tree :: rest.trees ++ [arrow.tree, body.tree])
  | .letIn kw binds inKw body => .node .kwExpr [kw.tree, binds.tree, inKw.tree, body.tree]
  | .ifThenElse ifKw c thenKw y elseKw n =>
    .node .kwExpr [ifKw.tree, c.tree, thenKw.tree, y.tree, elseKw.tree, n.tree]
  | .caseOf kw s ofKw l alt rest =>
    .node .kwExpr (kw.tree :: s.tree :: ofKw.tree :: l.tree :: alt.tree :: rest.trees)

@[simp]
def FullExpr.tree : FullExpr → Tree
  | .operation e => .node .expr [.node .infixExpr e.trees]
  | .keyword e => .node .expr [e.tree]

@[simp]
def CaseAlt.tree : CaseAlt → Tree
  | .mk p arrow e => .node .alt [p.tree, arrow.tree, e.tree]

@[simp]
def AltTail.trees : AltTail → List Tree
  | .close r => [r.tree]
  | .trailing s r => [s.tree, r.tree]
  | .more s alt rest => s.tree :: alt.tree :: rest.trees

@[simp]
def LetBinds.tree : LetBinds → Tree
  | .single b => .node .letBinds [b.tree]
  | .block l b rest => .node .letBinds (l.tree :: b.tree :: rest.trees)

@[simp]
def LetTail.trees : LetTail → List Tree
  | .close r => [r.tree]
  | .trailing s r => [s.tree, r.tree]
  | .more s b rest => s.tree :: b.tree :: rest.trees

@[simp]
def LetBind.tree : LetBind → Tree
  | .equation e => .node .letBind [e.tree]
  | .pattern e => .node .letBind [e.tree]

@[simp]
def Equation.tree : Equation → Tree
  | .mk b ps eq e => .node .funEquation (b.tree :: ps.trees ++ [eq.tree, e.tree])

@[simp]
def PatEquation.tree : PatEquation → Tree
  | .mk lhs eq e => .node .patEquation [lhs.tree, eq.tree, e.tree]

end

def Signature.tree (s : Signature) : Tree :=
  .node .sigDecl (s.binders.trees Binder.tree ++ [s.colons.tree, s.ty.tree])

def Constructor.tree (c : Constructor) : Tree :=
  .node .constr (c.name.tree :: c.args.map AtomicTy.tree)

def FixityKeyword.tree : FixityKeyword → Tree
  | .left t => .node .fixityKw [t.tree]
  | .right t => .node .fixityKw [t.tree]
  | .none t => .node .fixityKw [t.tree]

def Block.trees {α : Type} (f : α → Tree) (b : Block α) : List Tree :=
  b.kw.tree :: b.opening.tree :: b.items.elim [] (·.trees f) ++ [b.closing.tree]

def Decl.tree : Decl → Tree
  | .data kw n vs cons => .node .dataDecl (kw.tree :: n.tree :: vs.map Tok.tree
      ++ cons.elim [] fun p => p.1.tree :: p.2.trees Constructor.tree)
  | .signature s => s.tree
  | .primitive kw s => .node .primDecl [kw.tree, s.tree]
  | .fixity kw p ops => .node .fixityDecl (kw.tree :: p.tree :: ops.trees Tok.tree)
  | .typeClass kw n v body => .node .classDecl (kw.tree :: n.tree :: v.tree ::
      body.elim [] (·.trees Signature.tree))
  | .inst kw h body => .node .instanceDecl (kw.tree :: h.tree ::
      body.elim [] (·.trees Equation.tree))
  | .equation e => e.tree
  | .pattern e => e.tree

def TopDecl.tree : TopDecl → Tree
  | .header kw n => .node .topdecl [.node .moduleHeader [kw.tree, n.tree]]
  | .importDecl kw n => .node .topdecl [.node .importDecl [kw.tree, n.tree]]
  | .decl d => .node .topdecl [d.tree]

def Module.tree (m : Module) : Tree :=
  .node .module (m.decls.elim [] (·.trees TopDecl.tree))

/-! ### The tokens of a tree -/

@[simp]
theorem Tok.yield_tree {k : Terminal} (t : Tok k) : t.tree.yield = [t.token] := rfl

mutual

@[simp]
theorem AtomicTy.yield_tree : ∀ t : AtomicTy, t.tree.yield = t.yield
  | .con n | .var n => by simp [AtomicTy.yield]
  | .list l t r | .paren l t r => by simp [AtomicTy.yield, t.yield_tree]
  | .tuple l t c rest => by simp [AtomicTy.yield, t.yield_tree, rest.yields_trees]

@[simp]
theorem TupleTail.yields_trees : ∀ l : TupleTail, Tree.yields l.trees = l.yield
  | .last t r => by simp [TupleTail.yield, t.yield_tree]
  | .more t c rest => by simp [TupleTail.yield, t.yield_tree, rest.yields_trees]

@[simp]
theorem AppliedTy.yield_tree : ∀ t : AppliedTy, t.tree.yield = t.yield
  | .atom t => by simp [AppliedTy.yield, t.yield_tree]
  | .app f a => by simp [AppliedTy.yield, f.yield_tree, a.yield_tree]

@[simp]
theorem FullTy.yield_tree : ∀ t : FullTy, t.tree.yield = t.yield
  | .plain t => by simp [FullTy.yield, t.yield_tree]
  | .fn a arrow r => by simp [FullTy.yield, a.yield_tree, r.yield_tree]

end

@[simp]
theorem QualTy.yield_tree (t : QualTy) : t.tree.yield = t.yield := by
  cases t <;> simp [QualTy.tree, QualTy.yield]

mutual

@[simp]
theorem AtomicPat.yield_tree : ∀ p : AtomicPat, p.tree.yield = p.yield
  | .var n | .wild n | .con n | .int n | .string n => by simp [AtomicPat.yield]
  | .nil l r => by simp [AtomicPat.yield]
  | .paren l p r => by simp [AtomicPat.yield, p.yield_tree]

@[simp]
theorem AtomicPats.yields_trees : ∀ ps : AtomicPats, Tree.yields ps.trees = ps.yield
  | .nil => rfl
  | .cons p rest => by simp [AtomicPats.yield, p.yield_tree, rest.yields_trees]

@[simp]
theorem AppliedPat.yield_tree : ∀ p : AppliedPat, p.tree.yield = p.yield
  | .atom p => by simp [AppliedPat.yield, p.yield_tree]
  | .app c p rest => by
    simp [AppliedPat.yield, p.yield_tree,
      rest.yields_trees]

@[simp]
theorem FullPat.yield_tree : ∀ p : FullPat, p.tree.yield = p.yield
  | .plain p => by simp [FullPat.yield, p.yield_tree]
  | .infixed l op r => by simp [FullPat.yield, l.yield_tree, r.yield_tree]

end

@[simp]
theorem Binder.yield_tree (b : Binder) : b.tree.yield = b.yield := by
  cases b <;> simp [Binder.tree, Binder.yield]

@[simp]
theorem PatLhs.yield_tree (l : PatLhs) : l.tree.yield = l.yield := by
  cases l <;> simp [PatLhs.tree, PatLhs.yield]

mutual

@[simp]
theorem AtomicExpr.yield_tree : ∀ e : AtomicExpr, e.tree.yield = e.yield
  | .var n | .con n | .int n | .string n => by simp [AtomicExpr.yield]
  | .op l n r => by simp [AtomicExpr.yield]
  | .paren l e r => by simp [AtomicExpr.yield, e.yield_tree]
  | .nil l r => by simp [AtomicExpr.yield]
  | .list l e rest => by
    simp [AtomicExpr.yield, e.yield_tree,
      rest.yields_trees]

@[simp]
theorem ListTail.yields_trees : ∀ l : ListTail, Tree.yields l.trees = l.yield
  | .close r => by simp [ListTail.yield]
  | .more c e rest => by simp [ListTail.yield, e.yield_tree, rest.yields_trees]

@[simp]
theorem AppliedExpr.yield_tree : ∀ e : AppliedExpr, e.tree.yield = e.yield
  | .atom e => by simp [AppliedExpr.yield, e.yield_tree]
  | .app f a => by simp [AppliedExpr.yield, f.yield_tree, a.yield_tree]

@[simp]
theorem Operation.yields_trees : ∀ e : Operation, Tree.yields e.trees = e.yield
  | .last e => by simp [Operation.yield, e.yield_tree]
  | .more e op rest => by simp [Operation.yield, e.yield_tree, rest.yields_trees]
  | .keyword e op last => by simp [Operation.yield, e.yield_tree, last.yield_tree]

@[simp]
theorem KeywordExpr.yield_tree : ∀ e : KeywordExpr, e.tree.yield = e.yield
  | .lambda bs p rest arrow body => by simp [KeywordExpr.yield, body.yield_tree]
  | .letIn kw binds inKw body => by
    simp [KeywordExpr.yield, binds.yield_tree,
      body.yield_tree]
  | .ifThenElse ifKw c thenKw y elseKw n => by
    simp [KeywordExpr.yield, c.yield_tree, y.yield_tree,
      n.yield_tree]
  | .caseOf kw s ofKw l alt rest => by
    simp [KeywordExpr.yield, s.yield_tree,
      alt.yield_tree, rest.yields_trees]

@[simp]
theorem FullExpr.yield_tree : ∀ e : FullExpr, e.tree.yield = e.yield
  | .operation e => by simp [FullExpr.yield, e.yields_trees]
  | .keyword e => by simp [FullExpr.yield, e.yield_tree]

@[simp]
theorem CaseAlt.yield_tree : ∀ a : CaseAlt, a.tree.yield = a.yield
  | .mk p arrow e => by simp [CaseAlt.yield, e.yield_tree]

@[simp]
theorem AltTail.yields_trees : ∀ l : AltTail, Tree.yields l.trees = l.yield
  | .close r => by simp [AltTail.yield]
  | .trailing s r => by simp [AltTail.yield]
  | .more s a rest => by simp [AltTail.yield, a.yield_tree, rest.yields_trees]

@[simp]
theorem LetBinds.yield_tree : ∀ b : LetBinds, b.tree.yield = b.yield
  | .single b => by simp [LetBinds.yield, b.yield_tree]
  | .block l b rest => by simp [LetBinds.yield, b.yield_tree, rest.yields_trees]

@[simp]
theorem LetTail.yields_trees : ∀ l : LetTail, Tree.yields l.trees = l.yield
  | .close r => by simp [LetTail.yield]
  | .trailing s r => by simp [LetTail.yield]
  | .more s b rest => by simp [LetTail.yield, b.yield_tree, rest.yields_trees]

@[simp]
theorem LetBind.yield_tree : ∀ b : LetBind, b.tree.yield = b.yield
  | .equation e => by simp [LetBind.yield, e.yield_tree]
  | .pattern e => by simp [LetBind.yield, e.yield_tree]

@[simp]
theorem Equation.yield_tree : ∀ e : Equation, e.tree.yield = e.yield
  | .mk b ps eq e => by simp [Equation.yield, e.yield_tree]

@[simp]
theorem PatEquation.yield_tree : ∀ e : PatEquation, e.tree.yield = e.yield
  | .mk lhs eq e => by simp [PatEquation.yield, e.yield_tree]

end

theorem SepBy.yields_trees {sep : Terminal} {α : Type} {f : α → Tree} {g : α → List Token}
    (h : ∀ a, (f a).yield = g a) (s : SepBy sep α) : Tree.yields (s.trees f) = s.yield g := by
  obtain ⟨first, more⟩ := s
  have tail : Tree.yields (more.flatMap fun p => [p.1.tree, f p.2]) =
      more.flatMap fun p => p.1.token :: g p.2 := by
    induction more with
    | nil => rfl
    | cons p more ih => simp [h, ih]
  simp [SepBy.trees, SepBy.yield, h, tail]

@[simp]
theorem Signature.yield_tree (s : Signature) : s.tree.yield = s.yield := by
  simp [Signature.tree, Signature.yield,
    SepBy.yields_trees Binder.yield_tree]

@[simp]
theorem Constructor.yield_tree (c : Constructor) : c.tree.yield = c.yield := by
  obtain ⟨name, args⟩ := c
  have tail : Tree.yields (args.map AtomicTy.tree) = args.flatMap AtomicTy.yield := by
    induction args with
    | nil => rfl
    | cons t args ih => simp [ih]
  simp [Constructor.tree, Constructor.yield, tail]

@[simp]
theorem FixityKeyword.yield_tree (kw : FixityKeyword) : kw.tree.yield = kw.yield := by
  cases kw <;> simp [FixityKeyword.tree, FixityKeyword.yield]

theorem Block.yields_trees {α : Type} {f : α → Tree} {g : α → List Token}
    (h : ∀ a, (f a).yield = g a) (b : Block α) : Tree.yields (b.trees f) = b.yield g := by
  obtain ⟨kw, opening, _ | items, closing⟩ := b <;>
    simp [Block.trees, Block.yield, SepBy.yields_trees h]

theorem yields_map_tree {k : Terminal} (ts : List (Tok k)) :
    Tree.yields (ts.map Tok.tree) = ts.map Tok.token := by
  induction ts with
  | nil => rfl
  | cons t ts ih => simp [ih]

@[simp]
theorem Decl.yield_tree (d : Decl) : d.tree.yield = d.yield := by
  rcases d with
    ⟨kw, n, vs, _ | cons⟩ | _ | _ | _ | ⟨kw, n, v, _ | body⟩ | ⟨kw, h, _ | body⟩ | _ | _ <;>
    simp [Decl.tree, Decl.yield, yields_map_tree,
      SepBy.yields_trees Constructor.yield_tree, SepBy.yields_trees Tok.yield_tree,
      Block.yields_trees Signature.yield_tree, Block.yields_trees Equation.yield_tree]

@[simp]
theorem TopDecl.yield_tree (d : TopDecl) : d.tree.yield = d.yield := by
  cases d <;> simp [TopDecl.tree, TopDecl.yield]

@[simp]
theorem Module.yield_tree (m : Module) : m.tree.yield = m.yield := by
  obtain ⟨_ | ds⟩ := m <;>
    simp [Module.tree, Module.yield, SepBy.yields_trees TopDecl.yield_tree]

/-! ### Concrete trees are derivation trees -/

@[simp]
theorem Tok.symbol_tree {k : Terminal} (t : Tok k) : t.tree.symbol = .tok k := rfl

@[simp]
theorem Tok.valid {k : Terminal} (t : Tok k) : t.tree.Valid := .leaf _

@[simp]
theorem AtomicTy.symbol_tree (t : AtomicTy) : t.tree.symbol = .rule .atype := by
  cases t <;> simp

@[simp]
theorem AppliedTy.symbol_tree (t : AppliedTy) : t.tree.symbol = .rule .btype := by
  cases t <;> simp

@[simp]
theorem FullTy.symbol_tree (t : FullTy) : t.tree.symbol = .rule .type := by
  cases t <;> simp

@[simp]
theorem QualTy.symbol_tree (t : QualTy) : t.tree.symbol = .rule .qualType := by
  cases t <;> simp [QualTy.tree]

@[simp]
theorem AtomicPat.symbol_tree (p : AtomicPat) : p.tree.symbol = .rule .apat := by
  cases p <;> simp

@[simp]
theorem AppliedPat.symbol_tree (p : AppliedPat) : p.tree.symbol = .rule .lpat := by
  cases p <;> simp

@[simp]
theorem FullPat.symbol_tree (p : FullPat) : p.tree.symbol = .rule .pat := by
  cases p <;> simp

@[simp]
theorem Binder.symbol_tree (b : Binder) : b.tree.symbol = .rule .binder := by
  cases b <;> simp [Binder.tree]

@[simp]
theorem PatLhs.symbol_tree (l : PatLhs) : l.tree.symbol = .rule .patLhs := by
  cases l <;> simp [PatLhs.tree]

@[simp]
theorem AtomicExpr.symbol_tree (e : AtomicExpr) : e.tree.symbol = .rule .aexp := by
  cases e <;> simp

@[simp]
theorem AppliedExpr.symbol_tree (e : AppliedExpr) : e.tree.symbol = .rule .fexp := by
  cases e <;> simp

@[simp]
theorem KeywordExpr.symbol_tree (e : KeywordExpr) : e.tree.symbol = .rule .kwExpr := by
  cases e <;> simp

@[simp]
theorem FullExpr.symbol_tree (e : FullExpr) : e.tree.symbol = .rule .expr := by
  cases e <;> simp

@[simp]
theorem CaseAlt.symbol_tree (a : CaseAlt) : a.tree.symbol = .rule .alt := by
  cases a
  simp

@[simp]
theorem LetBinds.symbol_tree (b : LetBinds) : b.tree.symbol = .rule .letBinds := by
  cases b <;> simp

@[simp]
theorem LetBind.symbol_tree (b : LetBind) : b.tree.symbol = .rule .letBind := by
  cases b <;> simp

@[simp]
theorem Equation.symbol_tree (e : Equation) : e.tree.symbol = .rule .funEquation := by
  cases e
  simp

@[simp]
theorem PatEquation.symbol_tree (e : PatEquation) : e.tree.symbol = .rule .patEquation := by
  cases e
  simp

theorem TupleTail.fits : ∀ l : TupleTail, Fits (sepBy .comma (rule .type) * tok .rparen) l.trees
  | .last t r => by
    have : Fits (many (tok .comma * rule .type) * tok .rparen) [r.tree] :=
      Tree.fits_many_mul.mpr (.inl (by simp))
    simpa [sepBy] using this
  | .more t c rest => by
    have : Fits (many (tok .comma * rule .type) * tok .rparen) (c.tree :: rest.trees) :=
      Tree.fits_many_mul.mpr (.inr (by simpa [sepBy] using rest.fits))
    simpa [sepBy] using this

mutual

@[simp]
theorem AtomicTy.valid : ∀ t : AtomicTy, t.tree.Valid
  | .con n | .var n => .node (by simp [production]) (by simp)
  | .list l t r | .paren l t r => .node (by simp [production]) (by simp [t.valid])
  | .tuple l t c rest =>
    .node (by simp [production, rest.fits]) (by simpa [t.valid] using rest.valid)

theorem TupleTail.valid : ∀ l : TupleTail, ∀ T ∈ l.trees, T.Valid
  | .last t r => by simp [t.valid]
  | .more t c rest => by simpa [t.valid] using rest.valid

@[simp]
theorem AppliedTy.valid : ∀ t : AppliedTy, t.tree.Valid
  | .atom t => .node (by simp [production]) (by simp [t.valid])
  | .app f a => .node (by simp [production]) (by simp [f.valid, a.valid])

@[simp]
theorem FullTy.valid : ∀ t : FullTy, t.tree.Valid
  | .plain t => .node (by simp [production]) (by simp [t.valid])
  | .fn a arrow r => .node (by simp [production]) (by simp [a.valid, r.valid])

end

@[simp]
theorem QualTy.valid : ∀ t : QualTy, t.tree.Valid
  | .plain t => .node (by simp [production]) (by simp [t.valid])
  | .qualified c arrow t => .node (by simp [production]) (by simp [c.valid, t.valid])

theorem AtomicPats.fits : ∀ ps : AtomicPats, Fits (many (rule .apat)) ps.trees
  | .nil => Tree.fits_many_nil
  | .cons p rest =>
    have item : Fits (rule .apat) [p.tree] := by simp
    item.many_append rest.fits

mutual

@[simp]
theorem AtomicPat.valid : ∀ p : AtomicPat, p.tree.Valid
  | .var n | .wild n | .con n | .int n | .string n => .node (by simp [production]) (by simp)
  | .nil l r => .node (by simp [production]) (by simp)
  | .paren l p r => .node (by simp [production]) (by simp [p.valid])

theorem AtomicPats.valid : ∀ ps : AtomicPats, ∀ T ∈ ps.trees, T.Valid
  | .nil => by simp
  | .cons p rest => by simpa [p.valid] using rest.valid

@[simp]
theorem AppliedPat.valid : ∀ p : AppliedPat, p.tree.Valid
  | .atom p => .node (by simp [production]) (by simp [p.valid])
  | .app c p rest => .node (by simp [production, rest.fits]) (by simpa [p.valid] using rest.valid)

@[simp]
theorem FullPat.valid : ∀ p : FullPat, p.tree.Valid
  | .plain p => .node (by simp [production]) (by simp [p.valid])
  | .infixed l op r => .node (by simp [production]) (by simp [l.valid, r.valid])

end

@[simp]
theorem Binder.valid : ∀ b : Binder, b.tree.Valid
  | .var n | .op l n r => .node (by simp [production]) (by simp)

@[simp]
theorem PatLhs.valid : ∀ l : PatLhs, l.tree.Valid
  | .con n args => .node (by simp [production, args.fits]) (by simpa using args.valid)
  | .paren l p r => .node (by simp [production]) (by simp)

theorem ListTail.fits :
    ∀ l : ListTail, Fits (many (tok .comma * rule .expr) * tok .rbracket) l.trees
  | .close r => Tree.fits_many_mul.mpr (.inl (by simp))
  | .more c e rest => Tree.fits_many_mul.mpr (.inr (by simpa using rest.fits))

theorem Operation.fits : ∀ e : Operation,
    Fits (rule .fexp * (many (tok .operator * rule .fexp) * opt (tok .operator * rule .kwExpr)))
      e.trees
  | .last e => by
    have : Fits (many (tok .operator * rule .fexp) * opt (tok .operator * rule .kwExpr)) [] :=
      Tree.fits_many_mul.mpr (.inl (by simp))
    simpa using this
  | .more e op rest => by
    have : Fits (many (tok .operator * rule .fexp) * opt (tok .operator * rule .kwExpr))
        (op.tree :: rest.trees) :=
      Tree.fits_many_mul.mpr (.inr (by simpa using rest.fits))
    simpa using this
  | .keyword e op k => by
    have : Fits (many (tok .operator * rule .fexp) * opt (tok .operator * rule .kwExpr))
        [op.tree, k.tree] :=
      Tree.fits_many_mul.mpr (.inl (by simp))
    simpa using this

theorem AltTail.fits : ∀ l : AltTail,
    Fits (many (tok .semi * rule .alt) * (opt (tok .semi) * tok .rbrace)) l.trees
  | .close r => Tree.fits_many_mul.mpr (.inl (by simp))
  | .trailing s r => Tree.fits_many_mul.mpr (.inl (by simp))
  | .more s a rest => Tree.fits_many_mul.mpr (.inr (by simpa using rest.fits))

theorem LetTail.fits : ∀ l : LetTail,
    Fits (many (tok .semi * rule .letBind) * (opt (tok .semi) * tok .rbrace)) l.trees
  | .close r => Tree.fits_many_mul.mpr (.inl (by simp))
  | .trailing s r => Tree.fits_many_mul.mpr (.inl (by simp))
  | .more s b rest => Tree.fits_many_mul.mpr (.inr (by simpa using rest.fits))

mutual

@[simp]
theorem AtomicExpr.valid : ∀ e : AtomicExpr, e.tree.Valid
  | .var n | .con n | .int n | .string n => .node (by simp [production]) (by simp)
  | .op l n r => .node (by simp [production]) (by simp)
  | .paren l e r => .node (by simp [production]) (by simp [e.valid])
  | .nil l r => .node (by simp [production]) (by simp)
  | .list l e rest =>
    .node (by simp [production, sepBy, rest.fits]) (by simpa [e.valid] using rest.valid)

theorem ListTail.valid : ∀ l : ListTail, ∀ T ∈ l.trees, T.Valid
  | .close r => by simp
  | .more c e rest => by simpa [e.valid] using rest.valid

@[simp]
theorem AppliedExpr.valid : ∀ e : AppliedExpr, e.tree.Valid
  | .atom e => .node (by simp [production]) (by simp [e.valid])
  | .app f a => .node (by simp [production]) (by simp [f.valid, a.valid])

theorem Operation.valid : ∀ e : Operation, ∀ T ∈ e.trees, T.Valid
  | .last e => by simp [e.valid]
  | .more e op rest => by simpa [e.valid] using rest.valid
  | .keyword e op k => by simp [e.valid, k.valid]

@[simp]
theorem KeywordExpr.valid : ∀ e : KeywordExpr, e.tree.Valid
  | .lambda bs p rest arrow body => by
    have : Fits (many (rule .apat) * (tok .arrow * rule .expr))
        (rest.trees ++ [arrow.tree, body.tree]) := rest.fits.append (by simp)
    refine .node (by simp [production, this]) (List.forall_mem_append.mpr ⟨?_, by simp [body.valid]⟩)
    simpa using rest.valid
  | .letIn kw binds inKw body => .node (by simp [production]) (by simp [binds.valid, body.valid])
  | .ifThenElse ifKw c thenKw y elseKw n =>
    .node (by simp [production]) (by simp [c.valid, y.valid, n.valid])
  | .caseOf kw s ofKw l alt rest =>
    .node (by simp [production, braces, sepBy, rest.fits])
      (by simpa [s.valid, alt.valid] using rest.valid)

@[simp]
theorem FullExpr.valid : ∀ e : FullExpr, e.tree.Valid
  | .operation e =>
    .node (by simp [production])
      (by simpa using .node (by simpa [production] using e.fits) e.valid)
  | .keyword e => .node (by simp [production]) (by simp [e.valid])

@[simp]
theorem CaseAlt.valid : ∀ a : CaseAlt, a.tree.Valid
  | .mk p arrow e => .node (by simp [production]) (by simp [e.valid])

theorem AltTail.valid : ∀ l : AltTail, ∀ T ∈ l.trees, T.Valid
  | .close r => by simp
  | .trailing s r => by simp
  | .more s a rest => by simpa [a.valid] using rest.valid

@[simp]
theorem LetBinds.valid : ∀ b : LetBinds, b.tree.Valid
  | .single b => .node (by simp [production]) (by simp [b.valid])
  | .block l b rest =>
    .node (by simp [production, braces, sepBy, rest.fits]) (by simpa [b.valid] using rest.valid)

theorem LetTail.valid : ∀ l : LetTail, ∀ T ∈ l.trees, T.Valid
  | .close r => by simp
  | .trailing s r => by simp
  | .more s b rest => by simpa [b.valid] using rest.valid

@[simp]
theorem LetBind.valid : ∀ b : LetBind, b.tree.Valid
  | .equation e => .node (by simp [production]) (by simp [e.valid])
  | .pattern e => .node (by simp [production]) (by simp [e.valid])

@[simp]
theorem Equation.valid : ∀ e : Equation, e.tree.Valid
  | .mk b ps eq e => by
    have : Fits (many (rule .apat) * (tok .equals * rule .expr)) (ps.trees ++ [eq.tree, e.tree]) :=
      ps.fits.append (by simp)
    refine .node (by simp [production, this]) (List.forall_mem_append.mpr ⟨?_, by simp [e.valid]⟩)
    simpa using ps.valid

@[simp]
theorem PatEquation.valid : ∀ e : PatEquation, e.tree.Valid
  | .mk lhs eq e => .node (by simp [production]) (by simp [e.valid])

end

section Items

variable {α : Type} {sep : Terminal} {f : α → Tree} {P : Form}

theorem SepBy.fits (h : ∀ a, Fits P [f a]) (s : SepBy sep α) : Fits (sepBy sep P) (s.trees f) := by
  obtain ⟨first, more⟩ := s
  refine (h first).append ?_
  induction more with
  | nil => exact Tree.fits_many_nil
  | cons p more ih =>
    have item : Fits (tok sep * P) [p.1.tree, f p.2] := by
      simpa using h p.2
    exact item.many_append ih

theorem SepBy.valid (h : ∀ a, (f a).Valid) (s : SepBy sep α) : ∀ T ∈ s.trees f, T.Valid := by
  simp only [SepBy.trees, List.forall_mem_cons, List.mem_flatMap]
  refine ⟨h _, ?_⟩
  rintro T ⟨p, -, hT⟩
  rcases hT with _ | ⟨_, _ | ⟨_, ⟨⟩⟩⟩
  · exact p.1.valid
  · exact h p.2

theorem Block.fits (h : ∀ a, Fits P [f a]) (b : Block α) : Fits (whereBlock P) (b.trees f) := by
  obtain ⟨kw, opening, _ | items, closing⟩ := b
  · simp [whereBlock, Block.trees]
  · have : Fits (sepBy .itemSep P * tok .blockClose) (items.trees f ++ [closing.tree]) :=
      (SepBy.fits h items).append (by simp)
    simp [whereBlock, Block.trees, this]

theorem Block.valid (h : ∀ a, (f a).Valid) (b : Block α) : ∀ T ∈ b.trees f, T.Valid := by
  obtain ⟨kw, opening, _ | items, closing⟩ := b
  · simp [Block.trees]
  · simpa [Block.trees, or_imp, forall_and] using SepBy.valid h items

end Items

@[simp]
theorem Signature.valid (s : Signature) : s.tree.Valid := by
  refine .node ?_ (List.forall_mem_append.mpr ⟨SepBy.valid Binder.valid _, by simp⟩)
  have names : Fits (sepBy .comma (rule .binder)) (s.binders.trees Binder.tree) :=
    SepBy.fits (by simp) s.binders
  exact Tree.fits_mul_assoc.mpr (names.append (by simp))

@[simp]
theorem Constructor.valid (c : Constructor) : c.tree.Valid := by
  refine .node ?_ (by simp)
  have args : Fits (many (rule .atype)) (c.args.map AtomicTy.tree) := by
    induction c.args with
    | nil => exact Tree.fits_many_nil
    | cons t ts ih =>
      have item : Fits (rule .atype) [t.tree] := by simp
      exact item.many_append ih
  simp [production, args]

@[simp]
theorem FixityKeyword.valid : ∀ kw : FixityKeyword, kw.tree.Valid
  | .left t | .right t | .none t => .node (by simp [production]) (by simp)

@[simp]
theorem Signature.symbol_tree (s : Signature) : s.tree.symbol = .rule .sigDecl := rfl

@[simp]
theorem Constructor.symbol_tree (c : Constructor) : c.tree.symbol = .rule .constr := rfl

@[simp]
theorem FixityKeyword.symbol_tree (kw : FixityKeyword) : kw.tree.symbol = .rule .fixityKw := by
  cases kw <;> simp [FixityKeyword.tree]

@[simp]
theorem Decl.valid (d : Decl) : d.tree.Valid := by
  cases d with
  | data kw n vs cons =>
    have vars : Fits (many (tok .varid)) (vs.map Tok.tree) := by
      induction vs with
      | nil => exact Tree.fits_many_nil
      | cons v vs ih =>
        have item : Fits (tok .varid) [v.tree] := by simp
        exact item.many_append ih
    have right : Fits (opt (tok .equals * sepBy .bar (rule .constr)))
        (cons.elim [] fun p => p.1.tree :: p.2.trees Constructor.tree) := by
      cases cons with
      | none => simp
      | some p =>
        have := SepBy.fits (P := rule .constr) (f := Constructor.tree) (by simp) p.2
        simp [this]
    refine .node (by simp [production, vars.append right]) ?_
    cases cons with
    | none => simp
    | some p =>
      have := SepBy.valid Constructor.valid p.2
      simpa [or_imp, forall_and]
  | signature s => exact s.valid
  | primitive kw s => exact .node (by simp [production]) (by simp)
  | fixity kw p ops =>
    have := SepBy.fits (P := tok .operator) (f := Tok.tree) (by simp) ops
    refine .node (by simp [production, this]) ?_
    simpa using SepBy.valid Tok.valid ops
  | typeClass kw n v body =>
    cases body with
    | none => exact .node (by simp [production]) (by simp)
    | some b =>
      have := Block.fits (P := rule .sigDecl) (f := Signature.tree) (by simp) b
      refine .node (by simp [production, this]) ?_
      simpa using Block.valid Signature.valid b
  | inst kw h body =>
    cases body with
    | none => exact .node (by simp [production]) (by simp)
    | some b =>
      have := Block.fits (P := rule .funEquation) (f := Equation.tree) (by simp) b
      refine .node (by simp [production, this]) ?_
      simpa using Block.valid Equation.valid b
  | equation e => exact e.valid
  | pattern e => exact e.valid

@[simp]
theorem TopDecl.symbol_tree (d : TopDecl) : d.tree.symbol = .rule .topdecl := by
  cases d <;> simp [TopDecl.tree]

@[simp]
theorem TopDecl.valid (d : TopDecl) : d.tree.Valid := by
  cases d with
  | header kw n | importDecl kw n =>
    exact .node (by simp [production]) (by simpa using .node (by simp [production]) (by simp))
  | decl d =>
    refine .node ?_ (by simp)
    rcases d <;> simp [production, Decl.tree]

theorem Module.derivation (m : Module) : Derivation m.yield m.tree where
  valid := by
    obtain ⟨_ | ds⟩ := m
    · exact .node (by simp [production]) (by simp)
    · have := SepBy.fits (P := rule .topdecl) (f := TopDecl.tree) (by simp) ds
      refine .node (by simp [production, this]) ?_
      simpa using SepBy.valid TopDecl.valid ds
  symbol := rfl
  yield := m.yield_tree

end TypeLens.Concrete
