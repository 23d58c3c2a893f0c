import TypeLens.Concrete.Pattern

/-!
The grammar of expressions. Lambda, `let`, `if` and `case` stand alone or after the last operator.
-/

namespace TypeLens.Concrete

/-- The name that an equation defines. -/
inductive Binder
  | var (name : Tok .varid)
  | op (l : Tok .lparen) (name : Tok .operator) (r : Tok .rparen)

def Binder.yield : Binder → List Token
  | .var n => [n.token]
  | .op l n r => [l.token, n.token, r.token]

/-- The left side of an equation that matches a pattern. -/
inductive PatLhs
  | con (name : Tok .conid) (args : AtomicPats)
  | paren (l : Tok .lparen) (p : FullPat) (r : Tok .rparen)

def PatLhs.yield : PatLhs → List Token
  | .con n args => n.token :: args.yield
  | .paren l p r => l.token :: p.yield ++ [r.token]

mutual

inductive AtomicExpr
  | var (name : Tok .varid)
  | con (name : Tok .conid)
  | op (l : Tok .lparen) (name : Tok .operator) (r : Tok .rparen)
  | int (t : Tok .int)
  | string (t : Tok .string)
  | paren (l : Tok .lparen) (e : FullExpr) (r : Tok .rparen)
  | nil (l : Tok .lbracket) (r : Tok .rbracket)
  | list (l : Tok .lbracket) (first : FullExpr) (rest : ListTail)

/-- The rest of a list after an element. -/
inductive ListTail
  | close (r : Tok .rbracket)
  | more (comma : Tok .comma) (e : FullExpr) (rest : ListTail)

inductive AppliedExpr
  | atom (e : AtomicExpr)
  | app (fn : AppliedExpr) (arg : AtomicExpr)

inductive Operation
  | last (e : AppliedExpr)
  | more (e : AppliedExpr) (op : Tok .operator) (rest : Operation)
  | keyword (e : AppliedExpr) (op : Tok .operator) (last : KeywordExpr)

inductive KeywordExpr
  | lambda (bs : Tok .backslash) (first : AtomicPat) (rest : AtomicPats) (arrow : Tok .arrow)
      (body : FullExpr)
  | letIn (kw : Tok .kwLet) (binds : LetBinds) (inKw : Tok .kwIn) (body : FullExpr)
  | ifThenElse (ifKw : Tok .kwIf) (cond : FullExpr) (thenKw : Tok .kwThen) (yes : FullExpr)
      (elseKw : Tok .kwElse) (no : FullExpr)
  | caseOf (kw : Tok .kwCase) (scrutinee : FullExpr) (ofKw : Tok .kwOf) (l : Tok .lbrace)
      (first : CaseAlt) (rest : AltTail)

inductive FullExpr
  | operation (e : Operation)
  | keyword (e : KeywordExpr)

inductive CaseAlt
  | mk (pat : FullPat) (arrow : Tok .arrow) (body : FullExpr)

/-- The rest of the alternatives after one of them. -/
inductive AltTail
  | close (r : Tok .rbrace)
  | trailing (semi : Tok .semi) (r : Tok .rbrace)
  | more (semi : Tok .semi) (alt : CaseAlt) (rest : AltTail)

inductive LetBinds
  | single (b : LetBind)
  | block (l : Tok .lbrace) (first : LetBind) (rest : LetTail)

/-- The rest of the bindings after one of them. -/
inductive LetTail
  | close (r : Tok .rbrace)
  | trailing (semi : Tok .semi) (r : Tok .rbrace)
  | more (semi : Tok .semi) (b : LetBind) (rest : LetTail)

inductive LetBind
  | equation (e : Equation)
  | pattern (e : PatEquation)

inductive Equation
  | mk (binder : Binder) (pats : AtomicPats) (eq : Tok .equals) (rhs : FullExpr)

inductive PatEquation
  | mk (lhs : PatLhs) (eq : Tok .equals) (rhs : FullExpr)

end

mutual

def AtomicExpr.yield : AtomicExpr → List Token
  | .var n => [n.token]
  | .con n => [n.token]
  | .op l n r => [l.token, n.token, r.token]
  | .int t => [t.token]
  | .string t => [t.token]
  | .paren l e r => l.token :: e.yield ++ [r.token]
  | .nil l r => [l.token, r.token]
  | .list l e rest => l.token :: e.yield ++ rest.yield

def ListTail.yield : ListTail → List Token
  | .close r => [r.token]
  | .more c e rest => c.token :: e.yield ++ rest.yield

def AppliedExpr.yield : AppliedExpr → List Token
  | .atom e => e.yield
  | .app f a => f.yield ++ a.yield

def Operation.yield : Operation → List Token
  | .last e => e.yield
  | .more e op rest => e.yield ++ op.token :: rest.yield
  | .keyword e op last => e.yield ++ op.token :: last.yield

def KeywordExpr.yield : KeywordExpr → List Token
  | .lambda bs p rest arrow body =>
    bs.token :: p.yield ++ rest.yield ++ arrow.token :: body.yield
  | .letIn kw binds inKw body => kw.token :: binds.yield ++ inKw.token :: body.yield
  | .ifThenElse ifKw c thenKw y elseKw n =>
    ifKw.token :: c.yield ++ thenKw.token :: y.yield ++ elseKw.token :: n.yield
  | .caseOf kw s ofKw l alt rest =>
    kw.token :: s.yield ++ ofKw.token :: l.token :: alt.yield ++ rest.yield

def FullExpr.yield : FullExpr → List Token
  | .operation e => e.yield
  | .keyword e => e.yield

def CaseAlt.yield : CaseAlt → List Token
  | .mk p arrow e => p.yield ++ arrow.token :: e.yield

def AltTail.yield : AltTail → List Token
  | .close r => [r.token]
  | .trailing s r => [s.token, r.token]
  | .more s alt rest => s.token :: alt.yield ++ rest.yield

def LetBinds.yield : LetBinds → List Token
  | .single b => b.yield
  | .block l b rest => l.token :: b.yield ++ rest.yield

def LetTail.yield : LetTail → List Token
  | .close r => [r.token]
  | .trailing s r => [s.token, r.token]
  | .more s b rest => s.token :: b.yield ++ rest.yield

def LetBind.yield : LetBind → List Token
  | .equation e => e.yield
  | .pattern e => e.yield

def Equation.yield : Equation → List Token
  | .mk b ps eq e => b.yield ++ ps.yield ++ eq.token :: e.yield

def PatEquation.yield : PatEquation → List Token
  | .mk lhs eq e => lhs.yield ++ eq.token :: e.yield

end

def Binder.region : Binder → Region
  | .var n => n.region
  | .op l _ r => l.region.through r.region

def PatLhs.region : PatLhs → Region
  | .con n args => args.extend n.region
  | .paren l _ r => l.region.through r.region

def ListTail.closing : ListTail → Tok .rbracket
  | .close r => r
  | .more _ _ rest => rest.closing

def AltTail.closing : AltTail → Tok .rbrace
  | .close r => r
  | .trailing _ r => r
  | .more _ _ rest => rest.closing

def AtomicExpr.region : AtomicExpr → Region
  | .var n => n.region
  | .con n => n.region
  | .op l _ r => l.region.through r.region
  | .int t => t.region
  | .string t => t.region
  | .paren l _ r => l.region.through r.region
  | .nil l r => l.region.through r.region
  | .list l _ rest => l.region.through rest.closing.region

def AppliedExpr.region : AppliedExpr → Region
  | .atom e => e.region
  | .app f a => f.region.through a.region

mutual

def Operation.region : Operation → Region
  | .last e => e.region
  | .more e _ rest => e.region.through rest.region
  | .keyword e _ last => e.region.through last.region

def KeywordExpr.region : KeywordExpr → Region
  | .lambda bs _ _ _ body => bs.region.through body.region
  | .letIn kw _ _ body => kw.region.through body.region
  | .ifThenElse kw _ _ _ _ n => kw.region.through n.region
  | .caseOf kw _ _ _ _ rest => kw.region.through rest.closing.region

def FullExpr.region : FullExpr → Region
  | .operation e => e.region
  | .keyword e => e.region

end

def CaseAlt.region : CaseAlt → Region
  | .mk p _ e => p.region.through e.region

def Equation.region : Equation → Region
  | .mk b _ _ e => b.region.through e.region

def PatEquation.region : PatEquation → Region
  | .mk lhs _ e => lhs.region.through e.region

def startsAtomicExpr : Terminal → Bool
  | .varid | .conid | .lparen | .int | .string | .lbracket => true
  | _ => false

def startsKeywordExpr : Terminal → Bool
  | .backslash | .kwLet | .kwIf | .kwCase => true
  | _ => false

open TypeLens.Concrete.Parser

def binder : Parser Binder := peek fun
  | some .lparen => do
    let l ← tok .lparen
    let n ← tok .operator
    return .op l n (← tok .rparen)
  | _ => do return .var (← tok .varid)

mutual

def atomicExpr : Nat → Parser AtomicExpr
  | 0 => fail
  | fuel + 1 => peek fun
    | some .varid => do return .var (← tok .varid)
    | some .conid => do return .con (← tok .conid)
    | some .int => do return .int (← tok .int)
    | some .string => do return .string (← tok .string)
    | some .lparen => do
      let l ← tok .lparen
      peek fun
        | some .operator => do
          let n ← tok .operator
          return .op l n (← tok .rparen)
        | _ => do
          let e ← fullExpr fuel
          return .paren l e (← tok .rparen)
    | some .lbracket => do
      let l ← tok .lbracket
      peek fun
        | some .rbracket => do return .nil l (← tok .rbracket)
        | _ => do
          let e ← fullExpr fuel
          return .list l e (← listTail fuel)
    | _ => fail

def listTail : Nat → Parser ListTail
  | 0 => fail
  | fuel + 1 => peek fun
    | some .comma => do
      let c ← tok .comma
      let e ← fullExpr fuel
      return .more c e (← listTail fuel)
    | _ => do return .close (← tok .rbracket)

def appliedExpr : Nat → Parser AppliedExpr
  | 0 => fail
  | fuel + 1 => do
    let e ← atomicExpr fuel
    arguments fuel (.atom e)

/-- The arguments of `fn`. -/
def arguments : Nat → AppliedExpr → Parser AppliedExpr
  | 0, _ => fail
  | fuel + 1, fn => peek fun k =>
    if k.any startsAtomicExpr then do
      let e ← atomicExpr fuel
      arguments fuel (.app fn e)
    else Parser.pure fn

def operation : Nat → Parser Operation
  | 0 => fail
  | fuel + 1 => do
    let e ← appliedExpr fuel
    peek fun
      | some .operator => do
        let op ← tok .operator
        peek fun k =>
          if k.any startsKeywordExpr then do return .keyword e op (← keywordExpr fuel)
          else do return .more e op (← operation fuel)
      | _ => Parser.pure (.last e)

def keywordExpr : Nat → Parser KeywordExpr
  | 0 => fail
  | fuel + 1 => peek fun
    | some .backslash => do
      let bs ← tok .backslash
      let p ← budgeted atomicPat
      let ps ← budgeted atomicPats
      let arrow ← tok .arrow
      return .lambda bs p ps arrow (← fullExpr fuel)
    | some .kwLet => do
      let kw ← tok .kwLet
      let binds ← letBinds fuel
      let inKw ← tok .kwIn
      return .letIn kw binds inKw (← fullExpr fuel)
    | some .kwIf => do
      let ifKw ← tok .kwIf
      let c ← fullExpr fuel
      let thenKw ← tok .kwThen
      let y ← fullExpr fuel
      let elseKw ← tok .kwElse
      return .ifThenElse ifKw c thenKw y elseKw (← fullExpr fuel)
    | some .kwCase => do
      let kw ← tok .kwCase
      let s ← fullExpr fuel
      let ofKw ← tok .kwOf
      let l ← tok .lbrace
      let alt ← caseAlt fuel
      return .caseOf kw s ofKw l alt (← altTail fuel)
    | _ => fail

def fullExpr : Nat → Parser FullExpr
  | 0 => fail
  | fuel + 1 => peek fun k =>
    if k.any startsKeywordExpr then do return .keyword (← keywordExpr fuel)
    else do return .operation (← operation fuel)

def caseAlt : Nat → Parser CaseAlt
  | 0 => fail
  | fuel + 1 => do
    let p ← budgeted fullPat
    let arrow ← tok .arrow
    return .mk p arrow (← fullExpr fuel)

def altTail : Nat → Parser AltTail
  | 0 => fail
  | fuel + 1 => peek fun
    | some .semi => do
      let s ← tok .semi
      peek fun
        | some .rbrace => do return .trailing s (← tok .rbrace)
        | _ => do
          let alt ← caseAlt fuel
          return .more s alt (← altTail fuel)
    | _ => do return .close (← tok .rbrace)

def letBinds : Nat → Parser LetBinds
  | 0 => fail
  | fuel + 1 => peek fun
    | some .lbrace => do
      let l ← tok .lbrace
      let b ← letBind fuel
      return .block l b (← letTail fuel)
    | _ => do return .single (← letBind fuel)

def letTail : Nat → Parser LetTail
  | 0 => fail
  | fuel + 1 => peek fun
    | some .semi => do
      let s ← tok .semi
      peek fun
        | some .rbrace => do return .trailing s (← tok .rbrace)
        | _ => do
          let b ← letBind fuel
          return .more s b (← letTail fuel)
    | _ => do return .close (← tok .rbrace)

def letBind : Nat → Parser LetBind
  | 0 => fail
  | fuel + 1 => peek fun
    | some .varid => do return .equation (← equation fuel (.var (← tok .varid)))
    | some .conid => do
      let c ← tok .conid
      let args ← budgeted atomicPats
      return .pattern (← patEquation fuel (.con c args))
    | some .lparen => do
      let l ← tok .lparen
      peek fun
        | some .operator => do
          let n ← tok .operator
          let r ← tok .rparen
          return .equation (← equation fuel (.op l n r))
        | _ => do
          let p ← budgeted fullPat
          let r ← tok .rparen
          return .pattern (← patEquation fuel (.paren l p r))
    | _ => fail

/-- What follows the name of an equation. -/
def equation : Nat → Binder → Parser Equation
  | 0, _ => fail
  | fuel + 1, b => do
    let ps ← budgeted atomicPats
    let eq ← tok .equals
    return .mk b ps eq (← fullExpr fuel)

/-- What follows the pattern of an equation. -/
def patEquation : Nat → PatLhs → Parser PatEquation
  | 0, _ => fail
  | fuel + 1, lhs => do
    let eq ← tok .equals
    return .mk lhs eq (← fullExpr fuel)

end

end TypeLens.Concrete
