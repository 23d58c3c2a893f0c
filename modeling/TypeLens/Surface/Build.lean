import TypeLens.Concrete.Module
import TypeLens.Surface.Fault
import TypeLens.Surface.Grouping
import TypeLens.Text.Digit

/-!
From concrete to surface trees. A node's span reaches from its first token to its last one, its
brackets and keywords included; parentheses around a type leave no node of their own.
-/

namespace TypeLens.Surface

open Concrete

abbrev Build (α : Type) := Except Fault α

/-- The span of a run of tokens. -/
def spanOf (file : Option String) (ts : List Token) : Span :=
  match ts.head?, ts.getLast? with
  | some a, some b => Region.span file ⟨a.region.start, b.region.stop⟩
  | _, _ => { file }

def misuse {α : Type} (m : Misuse) (loc : Span) : Build α := .error (.misuse m loc)

def buildInt (text : String) : Build Nat :=
  let ds := text.toList
  if Text.maxDigits < ds.length then .error .literalTooLong
  else .ok (ds.foldl (fun n c => 10 * n + (c.toNat - '0'.toNat)) 0)

/-- The value of a string with its quotes. -/
def buildString (text : String) : Build String :=
  match Text.Escape.decode (text.toList.drop 1).dropLast with
  | .ok cs => .ok (String.ofList cs)
  | .error e => .error (.badString e)

section Types

variable (file : Option String)

mutual

def buildAtomicTy : AtomicTy → Build TypeExpr
  | .con n => .ok (.con n.text [] (n.region.span file))
  | .var n => .ok (.var n.text (n.region.span file))
  | .list l t r => do
    let elem ← buildFullTy t
    return .con "[]" [elem] ((AtomicTy.list l t r).region.span file)
  | .paren _ t _ => buildFullTy t
  | .tuple l t c rest => misuse .tupleType ((AtomicTy.tuple l t c rest).region.span file)

def buildAppliedTy : AppliedTy → Build TypeExpr
  | .atom t => buildAtomicTy t
  | .app f a => do
    let loc := (AppliedTy.app f a).region.span file
    match ← buildAppliedTy f with
    | .con n args _ => do
      let arg ← buildAtomicTy a
      return .con n (args ++ [arg]) loc
    | _ => misuse .typeApplication loc

def buildFullTy : FullTy → Build TypeExpr
  | .plain t => buildAppliedTy t
  | .fn a arrow r => do
    let arg ← buildAppliedTy a
    let res ← buildFullTy r
    return .fn arg res ((FullTy.fn a arrow r).region.span file)

end

mutual

/-- The constraints that a context lists. -/
def contextItems : AppliedTy → List FullTy
  | .atom t => contextAtom t
  | .app f a => [.plain (.app f a)]

def contextAtom : AtomicTy → List FullTy
  | .tuple _ t _ rest => t :: rest.items
  | .paren _ t _ => contextFull t
  | t => [.plain (.atom t)]

def contextFull : FullTy → List FullTy
  | .plain t => contextItems t
  | t => [t]

end

def buildPred (t : FullTy) : Build PredExpr := do
  match ← buildFullTy file t with
  | .con cls [.var v _] loc => return ⟨cls, v, loc⟩
  | t => misuse .context t.loc

def buildQualTy (q : QualTy) : Build QualType := do
  let loc := q.region.span file
  match q with
  | .plain t => return ⟨[], ← buildFullTy file t, loc⟩
  | .qualified c _ t => do
    let context ← (contextItems c).mapM (buildPred file)
    return ⟨context, ← buildFullTy file t, loc⟩

end Types

section Patterns

variable (file : Option String)

mutual

def buildAtomicPat : AtomicPat → Build Pat
  | .var n => .ok (.var n.text (n.region.span file))
  | .wild t => .ok (.wild (t.region.span file))
  | .con n => .ok (.con n.text [] (n.region.span file))
  | .int t => do return .lit (.int (← buildInt t.text)) (t.region.span file)
  | .string t => do return .lit (.text (← buildString t.text)) (t.region.span file)
  | .nil l r => .ok (.con "[]" [] ((AtomicPat.nil l r).region.span file))
  | .paren l p r => do
    let inner ← buildFullPat p
    return .par inner ((AtomicPat.paren l p r).region.span file)

def buildAtomicPats : AtomicPats → Build (List Pat)
  | .nil => .ok []
  | .cons p ps => do
    let x ← buildAtomicPat p
    let xs ← buildAtomicPats ps
    return x :: xs

def buildAppliedPat : AppliedPat → Build Pat
  | .atom p => buildAtomicPat p
  | .app c p ps => do
    let x ← buildAtomicPat p
    let xs ← buildAtomicPats ps
    return .con c.text (x :: xs) ((AppliedPat.app c p ps).region.span file)

def buildFullPat : FullPat → Build Pat
  | .plain p => buildAppliedPat p
  | .infixed l op r =>
    if op.text = ":" then do
      let left ← buildAppliedPat l
      let right ← buildFullPat r
      return .con ":" [left, right] ((FullPat.infixed l op r).region.span file)
    else misuse (.patternOperator op.text) (op.region.span file)

end

def buildPatLhs : PatLhs → Build Pat
  | .con n args => do
    let ps ← buildAtomicPats file args
    return .con n.text ps ((PatLhs.con n args).region.span file)
  | .paren l p r => do
    let inner ← buildFullPat file p
    return .par inner ((PatLhs.paren l p r).region.span file)

end Patterns

def binderName : Binder → String
  | .var n => n.text
  | .op _ n _ => n.text

section Exprs

variable (file : Option String)

mutual

def buildAtomicExpr : AtomicExpr → Build Expr
  | .var n => .ok (.var n.text (n.region.span file))
  | .con n => .ok (.con n.text (n.region.span file))
  | .op l n r =>
    let loc := (AtomicExpr.op l n r).region.span file
    .ok (if isConOperator n.text then .con n.text loc else .var n.text loc)
  | .int t => do return .lit (.int (← buildInt t.text)) (t.region.span file)
  | .string t => do return .lit (.text (← buildString t.text)) (t.region.span file)
  | .paren l e r => do
    let inner ← buildFullExpr e
    return .par inner ((AtomicExpr.paren l e r).region.span file)
  | .nil l r => .ok (.list [] ((AtomicExpr.nil l r).region.span file))
  | .list l e rest => do
    let x ← buildFullExpr e
    let xs ← buildListTail rest
    return .list (x :: xs) ((AtomicExpr.list l e rest).region.span file)

def buildListTail : ListTail → Build (List Expr)
  | .close _ => .ok []
  | .more _ e rest => do
    let x ← buildFullExpr e
    let xs ← buildListTail rest
    return x :: xs

def buildAppliedExpr : AppliedExpr → Build Expr
  | .atom e => buildAtomicExpr e
  | .app f a => do
    let fn ← buildAppliedExpr f
    let arg ← buildAtomicExpr a
    return .app fn arg ((AppliedExpr.app f a).region.span file)

/-- The operands of a row after the first one. -/
def buildOperands : Operation → Build (Expr × List Operand)
  | .last e => do return (← buildAppliedExpr e, [])
  | .more e op rest => do
    let first ← buildAppliedExpr e
    let r ← buildOperands rest
    return (first, .mk ⟨op.text, op.region.span file⟩ r.1 :: r.2)
  | .keyword e op last => do
    let first ← buildAppliedExpr e
    let r ← buildKeywordExpr last
    return (first, [.mk ⟨op.text, op.region.span file⟩ r])

def buildKeywordExpr : KeywordExpr → Build Expr
  | .lambda bs p ps arrow body => do
    let x ← buildAtomicPat file p
    let xs ← buildAtomicPats file ps
    let e ← buildFullExpr body
    return .lambda (x :: xs) e ((KeywordExpr.lambda bs p ps arrow body).region.span file)
  | .letIn kw binds inKw body => do
    let bs ← buildLetBinds binds
    let e ← buildFullExpr body
    return .letIn (groupBindings bs) e ((KeywordExpr.letIn kw binds inKw body).region.span file)
  | .ifThenElse ifKw c thenKw y elseKw n => do
    let cond ← buildFullExpr c
    let yes ← buildFullExpr y
    let no ← buildFullExpr n
    return .ifThenElse cond yes no
      ((KeywordExpr.ifThenElse ifKw c thenKw y elseKw n).region.span file)
  | .caseOf kw s ofKw l alt rest => do
    let x ← buildCaseAlt alt
    let xs ← buildAltTail rest
    let scrutinee ← buildFullExpr s
    return .caseOf scrutinee (x :: xs) ((KeywordExpr.caseOf kw s ofKw l alt rest).region.span file)

def buildFullExpr : FullExpr → Build Expr
  | .keyword e => buildKeywordExpr e
  | .operation e => do
    let r ← buildOperands e
    return if r.2.isEmpty then r.1 else .row r.1 r.2 (e.region.span file)

def buildCaseAlt : CaseAlt → Build Alt
  | .mk p arrow e => do
    let pat ← buildFullPat file p
    let body ← buildFullExpr e
    return .mk pat body ((CaseAlt.mk p arrow e).region.span file)

def buildAltTail : AltTail → Build (List Alt)
  | .close _ => .ok []
  | .trailing _ _ => .ok []
  | .more _ alt rest => do
    let x ← buildCaseAlt alt
    let xs ← buildAltTail rest
    return x :: xs

def buildLetBinds : LetBinds → Build (List Binding)
  | .single b => do return [← buildLetBind b]
  | .block _ b rest => do
    let x ← buildLetBind b
    let xs ← buildLetTail rest
    return x :: xs

def buildLetTail : LetTail → Build (List Binding)
  | .close _ => .ok []
  | .trailing _ _ => .ok []
  | .more _ b rest => do
    let x ← buildLetBind b
    let xs ← buildLetTail rest
    return x :: xs

def buildLetBind : LetBind → Build Binding
  | .equation e => do return .fn (← buildEquation e)
  | .pattern e => do return .pat (← buildPatEquation e)

def buildEquation : Equation → Build FunBind
  | .mk b ps eq e => do
    let loc := (Equation.mk b ps eq e).region.span file
    let pats ← buildAtomicPats file ps
    let rhs ← buildFullExpr e
    return .mk (binderName b) (b.region.span file) (.mk pats rhs loc) [] loc

def buildPatEquation : PatEquation → Build PatBind
  | .mk lhs eq e => do
    let pat ← buildPatLhs file lhs
    let rhs ← buildFullExpr e
    return .mk pat rhs ((PatEquation.mk lhs eq e).region.span file)

end

end Exprs

section Decls

variable (file : Option String)

def buildSignature (s : Signature) : Build TypeSig := do
  let ty ← buildQualTy file s.ty
  return ⟨s.binders.items.map fun b => (binderName b, b.region.span file), ty,
    spanOf file s.yield⟩

def buildConstructor (c : Constructor) : Build ConDecl := do
  let args ← c.args.mapM (buildAtomicTy file)
  return ⟨c.name.text, args, spanOf file c.yield⟩

def fixityAssoc : FixityKeyword → Assoc
  | .left _ => .left
  | .right _ => .right
  | .none _ => .none

def buildDecl (d : Concrete.Decl) : Build Decl :=
  let loc := spanOf file d.yield
  match d with
  | .data _ n vs cons => do
    let cons ← (cons.elim [] fun p => p.2.items).mapM (buildConstructor file)
    return .data ⟨n.text, vs.map (·.text), cons, loc, n.region.span file⟩
  | .signature s => do return .sig (← buildSignature file s)
  | .primitive _ s => do return .prim ⟨← buildSignature file s, loc⟩
  | .fixity kw p ops => do
    let n ← buildInt p.text
    if 9 < n then misuse (.precedence n) loc
    else return .fixity ⟨⟨fixityAssoc kw, n⟩, ops.items.map (·.text), loc⟩
  | .typeClass _ n v body => do
    let sigs ← (body.elim [] Block.toList).mapM (buildSignature file)
    return .cls ⟨n.text, v.text, sigs, loc, n.region.span file⟩
  | .inst _ head body => do
    let q ← buildQualTy file head
    match q.body with
    | .con cls [arg] _ => do
      let eqs ← (body.elim [] Block.toList).mapM (buildEquation file)
      return .inst ⟨q.context, cls, arg, groupEquations eqs, loc⟩
    | _ => misuse .instanceHead q.loc
  | .equation e => do return .bind (.fn (← buildEquation file e))
  | .pattern e => do return .bind (.pat (← buildPatEquation file e))

/-- What has been read of a module. -/
structure Progress where
  header : Option (String × Span) := none
  imports : List ImportDecl := []
  decls : List Decl := []

/-- The header comes first, then the imports. -/
def buildTopDecl (p : Progress) (d : TopDecl) : Build Progress :=
  let loc := spanOf file d.yield
  match d with
  | .header _ n =>
    if p.header.isSome || !p.imports.isEmpty || !p.decls.isEmpty then misuse .lateHeader loc
    else .ok { p with header := some (n.text, loc) }
  | .importDecl _ n =>
    if !p.decls.isEmpty then misuse .lateImport loc
    else .ok { p with imports := p.imports ++ [⟨n.text, loc⟩] }
  | .decl d => do return { p with decls := p.decls ++ [← buildDecl file d] }

def buildModule (m : Concrete.Module) : Build Module := do
  let p ← m.toList.foldlM (buildTopDecl file) {}
  let header := p.header.getD ("Main", { file })
  return ⟨header.1, p.imports, groupDecls p.decls, spanOf file m.yield, header.2⟩

end Decls

end TypeLens.Surface
