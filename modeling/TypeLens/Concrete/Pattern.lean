import TypeLens.Concrete.Token

namespace TypeLens.Concrete

mutual

inductive AtomicPat
  | var (name : Tok .varid)
  | wild (t : Tok .wildcard)
  | con (name : Tok .conid)
  | int (t : Tok .int)
  | string (t : Tok .string)
  | nil (l : Tok .lbracket) (r : Tok .rbracket)
  | paren (l : Tok .lparen) (p : FullPat) (r : Tok .rparen)

inductive AtomicPats
  | nil
  | cons (p : AtomicPat) (rest : AtomicPats)

inductive AppliedPat
  | atom (p : AtomicPat)
  | app (con : Tok .conid) (first : AtomicPat) (rest : AtomicPats)

inductive FullPat
  | plain (p : AppliedPat)
  | infixed (left : AppliedPat) (op : Tok .operator) (right : FullPat)

end

mutual

def AtomicPat.yield : AtomicPat → List Token
  | .var n => [n.token]
  | .wild t => [t.token]
  | .con n => [n.token]
  | .int t => [t.token]
  | .string t => [t.token]
  | .nil l r => [l.token, r.token]
  | .paren l p r => l.token :: p.yield ++ [r.token]

def AtomicPats.yield : AtomicPats → List Token
  | .nil => []
  | .cons p rest => p.yield ++ rest.yield

def AppliedPat.yield : AppliedPat → List Token
  | .atom p => p.yield
  | .app c p rest => c.token :: p.yield ++ rest.yield

def FullPat.yield : FullPat → List Token
  | .plain p => p.yield
  | .infixed l op r => l.yield ++ op.token :: r.yield

end

def AtomicPat.region : AtomicPat → Region
  | .var n => n.region
  | .wild t => t.region
  | .con n => n.region
  | .int t => t.region
  | .string t => t.region
  | .nil l r => l.region.through r.region
  | .paren l _ r => l.region.through r.region

/-- The region of what stands before some patterns, with these. -/
def AtomicPats.extend (r : Region) : AtomicPats → Region
  | .nil => r
  | .cons p rest => rest.extend (r.through p.region)

def AppliedPat.region : AppliedPat → Region
  | .atom p => p.region
  | .app c p rest => rest.extend (c.region.through p.region)

def FullPat.region : FullPat → Region
  | .plain p => p.region
  | .infixed l _ r => l.region.through r.region

def startsAtomicPat : Terminal → Bool
  | .varid | .wildcard | .conid | .int | .string | .lbracket | .lparen => true
  | _ => false

open TypeLens.Concrete.Parser

mutual

def atomicPat : Nat → Parser AtomicPat
  | 0 => fail
  | fuel + 1 => peek fun
    | some .varid => do return .var (← tok .varid)
    | some .wildcard => do return .wild (← tok .wildcard)
    | some .conid => do return .con (← tok .conid)
    | some .int => do return .int (← tok .int)
    | some .string => do return .string (← tok .string)
    | some .lbracket => do
      let l ← tok .lbracket
      return .nil l (← tok .rbracket)
    | some .lparen => do
      let l ← tok .lparen
      let p ← fullPat fuel
      return .paren l p (← tok .rparen)
    | _ => fail

def atomicPats : Nat → Parser AtomicPats
  | 0 => fail
  | fuel + 1 => peek fun k =>
    if k.any startsAtomicPat then do
      let p ← atomicPat fuel
      return .cons p (← atomicPats fuel)
    else Parser.pure .nil

def appliedPat : Nat → Parser AppliedPat
  | 0 => fail
  | fuel + 1 => peek fun
    | some .conid => do
      let c ← tok .conid
      match ← atomicPats fuel with
      | .nil => return .atom (.con c)
      | .cons p rest => return .app c p rest
    | _ => do return .atom (← atomicPat fuel)

def fullPat : Nat → Parser FullPat
  | 0 => fail
  | fuel + 1 => do
    let p ← appliedPat fuel
    peek fun
      | some .operator => do
        let op ← tok .operator
        return .infixed p op (← fullPat fuel)
      | _ => Parser.pure (.plain p)

end

end TypeLens.Concrete
