import TypeLens.Concrete.Token

/-!
The grammar of types, as trees that keep every token, and their parser.
-/

namespace TypeLens.Concrete

mutual

inductive AtomicTy
  | con (name : Tok .conid)
  | var (name : Tok .varid)
  | list (l : Tok .lbracket) (elem : FullTy) (r : Tok .rbracket)
  | paren (l : Tok .lparen) (inner : FullTy) (r : Tok .rparen)
  | tuple (l : Tok .lparen) (first : FullTy) (comma : Tok .comma) (rest : TupleTail)

/-- The rest of a tuple after a comma. -/
inductive TupleTail
  | last (item : FullTy) (r : Tok .rparen)
  | more (item : FullTy) (comma : Tok .comma) (rest : TupleTail)

inductive AppliedTy
  | atom (t : AtomicTy)
  | app (fn : AppliedTy) (arg : AtomicTy)

inductive FullTy
  | plain (t : AppliedTy)
  | fn (arg : AppliedTy) (arrow : Tok .arrow) (res : FullTy)

end

mutual

def AtomicTy.yield : AtomicTy → List Token
  | .con n => [n.token]
  | .var n => [n.token]
  | .list l t r => l.token :: t.yield ++ [r.token]
  | .paren l t r => l.token :: t.yield ++ [r.token]
  | .tuple l t c rest => l.token :: t.yield ++ c.token :: rest.yield

def TupleTail.yield : TupleTail → List Token
  | .last t r => t.yield ++ [r.token]
  | .more t c rest => t.yield ++ c.token :: rest.yield

def AppliedTy.yield : AppliedTy → List Token
  | .atom t => t.yield
  | .app f a => f.yield ++ a.yield

def FullTy.yield : FullTy → List Token
  | .plain t => t.yield
  | .fn a arrow r => a.yield ++ arrow.token :: r.yield

end

def TupleTail.closing : TupleTail → Tok .rparen
  | .last _ r => r
  | .more _ _ rest => rest.closing

def AtomicTy.region : AtomicTy → Region
  | .con n => n.region
  | .var n => n.region
  | .list l _ r => l.region.through r.region
  | .paren l _ r => l.region.through r.region
  | .tuple l _ _ rest => l.region.through rest.closing.region

def AppliedTy.region : AppliedTy → Region
  | .atom t => t.region
  | .app f a => f.region.through a.region

def FullTy.region : FullTy → Region
  | .plain t => t.region
  | .fn a _ r => a.region.through r.region

def TupleTail.items : TupleTail → List FullTy
  | .last t _ => [t]
  | .more t _ rest => t :: rest.items

/-- A type, perhaps below a context. -/
inductive QualTy
  | plain (t : FullTy)
  | qualified (context : AppliedTy) (arrow : Tok .fatArrow) (t : FullTy)

def QualTy.yield : QualTy → List Token
  | .plain t => t.yield
  | .qualified c arrow t => c.yield ++ arrow.token :: t.yield

def QualTy.region : QualTy → Region
  | .plain t => t.region
  | .qualified c _ t => c.region.through t.region

def startsAtomicTy : Terminal → Bool
  | .conid | .varid | .lbracket | .lparen => true
  | _ => false

open TypeLens.Concrete.Parser

mutual

def atomicTy : Nat → Parser AtomicTy
  | 0 => fail
  | fuel + 1 => peek fun
    | some .conid => do return .con (← tok .conid)
    | some .varid => do return .var (← tok .varid)
    | some .lbracket => do
      let l ← tok .lbracket
      let t ← fullTy fuel
      return .list l t (← tok .rbracket)
    | some .lparen => do
      let l ← tok .lparen
      let t ← fullTy fuel
      peek fun
        | some .comma => do
          let c ← tok .comma
          return .tuple l t c (← tupleTail fuel)
        | _ => do return .paren l t (← tok .rparen)
    | _ => fail

def tupleTail : Nat → Parser TupleTail
  | 0 => fail
  | fuel + 1 => do
    let t ← fullTy fuel
    peek fun
      | some .comma => do
        let c ← tok .comma
        return .more t c (← tupleTail fuel)
      | _ => do return .last t (← tok .rparen)

def appliedTy : Nat → Parser AppliedTy
  | 0 => fail
  | fuel + 1 => do
    let t ← atomicTy fuel
    applications fuel (.atom t)

/-- The arguments of `fn`. -/
def applications : Nat → AppliedTy → Parser AppliedTy
  | 0, _ => fail
  | fuel + 1, fn => peek fun k =>
    if k.any startsAtomicTy then do
      let t ← atomicTy fuel
      applications fuel (.app fn t)
    else Parser.pure fn

def fullTy : Nat → Parser FullTy
  | 0 => fail
  | fuel + 1 => do
    let t ← appliedTy fuel
    functionTy fuel t

/-- A function type from `arg`, if an arrow comes next. -/
def functionTy : Nat → AppliedTy → Parser FullTy
  | 0, _ => fail
  | fuel + 1, arg => peek fun
    | some .arrow => do
      let arrow ← tok .arrow
      return .fn arg arrow (← fullTy fuel)
    | _ => Parser.pure (.plain arg)

end

def qualTy : Parser QualTy := do
  let t ← budgeted appliedTy
  peek fun
    | some .fatArrow => do
      let arrow ← tok .fatArrow
      return .qualified t arrow (← budgeted fullTy)
    | _ => do return .plain (← budgeted fun fuel => functionTy fuel t)

end TypeLens.Concrete
