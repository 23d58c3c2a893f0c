import TypeLens.Concrete.Type
import TypeLens.Concrete.Expr

/-!
The grammar of declarations and modules. `Module.parse` reads a whole list of tokens; a failure
holds the tokens from the first one on that cannot follow those before it.
-/

namespace TypeLens.Concrete

structure Signature where
  binders : SepBy .comma Binder
  colons : Tok .doubleColon
  ty : QualTy

def Signature.yield (s : Signature) : List Token :=
  s.binders.yield Binder.yield ++ s.colons.token :: s.ty.yield

structure Constructor where
  name : Tok .conid
  args : List AtomicTy

def Constructor.yield (c : Constructor) : List Token :=
  c.name.token :: c.args.flatMap AtomicTy.yield

inductive FixityKeyword
  | left (t : Tok .kwInfixl)
  | right (t : Tok .kwInfixr)
  | none (t : Tok .kwInfix)

def FixityKeyword.yield : FixityKeyword → List Token
  | .left t => [t.token]
  | .right t => [t.token]
  | .none t => [t.token]

/-- A `where` block, perhaps empty. -/
structure Block (α : Type) where
  kw : Tok .kwWhere
  opening : Tok .blockOpen
  items : Option (SepBy .itemSep α)
  closing : Tok .blockClose

def Block.yield {α : Type} (f : α → List Token) (b : Block α) : List Token :=
  b.kw.token :: b.opening.token :: (b.items.elim [] (·.yield f)) ++ [b.closing.token]

def Block.toList {α : Type} (b : Block α) : List α := b.items.elim [] SepBy.items

inductive Decl
  | data (kw : Tok .kwData) (name : Tok .conid) (tyvars : List (Tok .varid))
      (cons : Option (Tok .equals × SepBy .bar Constructor))
  | signature (s : Signature)
  | primitive (kw : Tok .kwPrimitive) (s : Signature)
  | fixity (kw : FixityKeyword) (precedence : Tok .int) (ops : SepBy .comma (Tok .operator))
  | typeClass (kw : Tok .kwClass) (name : Tok .conid) (tyvar : Tok .varid)
      (body : Option (Block Signature))
  | inst (kw : Tok .kwInstance) (head : QualTy) (body : Option (Block Equation))
  | equation (e : Equation)
  | pattern (e : PatEquation)

def Decl.yield : Decl → List Token
  | .data kw n vs cons =>
    kw.token :: n.token :: vs.map Tok.token
      ++ cons.elim [] fun p => p.1.token :: p.2.yield Constructor.yield
  | .signature s => s.yield
  | .primitive kw s => kw.token :: s.yield
  | .fixity kw p ops => kw.yield ++ p.token :: ops.yield fun t => [t.token]
  | .typeClass kw n v body =>
    kw.token :: n.token :: v.token :: body.elim [] (·.yield Signature.yield)
  | .inst kw h body => kw.token :: h.yield ++ body.elim [] (·.yield Equation.yield)
  | .equation e => e.yield
  | .pattern e => e.yield

inductive TopDecl
  | header (kw : Tok .kwModule) (name : Tok .conid)
  | importDecl (kw : Tok .kwImport) (name : Tok .conid)
  | decl (d : Decl)

def TopDecl.yield : TopDecl → List Token
  | .header kw n => [kw.token, n.token]
  | .importDecl kw n => [kw.token, n.token]
  | .decl d => d.yield

structure Module where
  decls : Option (SepBy .itemSep TopDecl)

def Module.yield (m : Module) : List Token := m.decls.elim [] (·.yield TopDecl.yield)

def Module.toList (m : Module) : List TopDecl := m.decls.elim [] SepBy.items

open TypeLens.Concrete.Parser

/-- What follows the first name of a signature. -/
def signatureFrom (first : Binder) : Parser Signature := do
  let more ← many (· = .comma) do
    let c ← tok .comma
    let b ← binder
    return (c, b)
  let colons ← tok .doubleColon
  let ty ← qualTy
  return ⟨⟨first, more⟩, colons, ty⟩

def signature : Parser Signature := do
  let b ← binder
  signatureFrom b

def constructor : Parser Constructor := do
  let name ← tok .conid
  let args ← many startsAtomicTy (budgeted atomicTy)
  return ⟨name, args⟩

/-- An item block, if `where` comes next. -/
def block {α : Type} (p : Parser α) : Parser (Option (Block α)) := peek fun
  | some .kwWhere => do
    let kw ← tok .kwWhere
    let opening ← tok .blockOpen
    peek fun
      | some .blockClose => do return some ⟨kw, opening, none, ← tok .blockClose⟩
      | _ => do
        let items ← sepBy .itemSep p
        return some ⟨kw, opening, some items, ← tok .blockClose⟩
  | _ => Parser.pure none

/-- A signature or an equation, after its first name. -/
def namedDecl (b : Binder) : Parser Decl := peek fun
  | some .comma | some .doubleColon => do return .signature (← signatureFrom b)
  | _ => do return .equation (← budgeted fun fuel => equation fuel b)

def methodEquation : Parser Equation := do
  let b ← binder
  budgeted fun fuel => equation fuel b

def fixityDecl (kw : FixityKeyword) : Parser Decl := do
  let p ← tok .int
  let ops ← sepBy .comma (tok .operator)
  return .fixity kw p ops

def decl : Parser Decl := peek fun
  | some .kwData => do
    let kw ← tok .kwData
    let name ← tok .conid
    let tyvars ← many (· = .varid) (tok .varid)
    peek fun
      | some .equals => do
        let eq ← tok .equals
        let cons ← sepBy .bar constructor
        return .data kw name tyvars (some (eq, cons))
      | _ => Parser.pure (.data kw name tyvars none)
  | some .kwPrimitive => do
    let kw ← tok .kwPrimitive
    return .primitive kw (← signature)
  | some .kwInfixl => do fixityDecl (.left (← tok .kwInfixl))
  | some .kwInfixr => do fixityDecl (.right (← tok .kwInfixr))
  | some .kwInfix => do fixityDecl (.none (← tok .kwInfix))
  | some .kwClass => do
    let kw ← tok .kwClass
    let name ← tok .conid
    let tyvar ← tok .varid
    return .typeClass kw name tyvar (← block signature)
  | some .kwInstance => do
    let kw ← tok .kwInstance
    let head ← qualTy
    return .inst kw head (← block methodEquation)
  | some .varid => do namedDecl (.var (← tok .varid))
  | some .conid => do
    let c ← tok .conid
    let args ← budgeted atomicPats
    return .pattern (← budgeted fun fuel => patEquation fuel (.con c args))
  | some .lparen => do
    let l ← tok .lparen
    peek fun
      | some .operator => do
        let n ← tok .operator
        let r ← tok .rparen
        namedDecl (.op l n r)
      | _ => do
        let p ← budgeted fullPat
        let r ← tok .rparen
        return .pattern (← budgeted fun fuel => patEquation fuel (.paren l p r))
  | _ => fail

def topDecl : Parser TopDecl := peek fun
  | some .kwModule => do
    let kw ← tok .kwModule
    return .header kw (← tok .conid)
  | some .kwImport => do
    let kw ← tok .kwImport
    return .importDecl kw (← tok .conid)
  | _ => do return .decl (← decl)

/-- Reads all of the tokens. -/
def Module.parse (ts : List Token) : Except (List Token) Module :=
  match ts with
  | [] => .ok ⟨none⟩
  | _ =>
    match sepBy .itemSep topDecl ts with
    | .ok (ds, []) => .ok ⟨some ds⟩
    | .ok (_, rest) => .error rest
    | .error rest => .error rest

end TypeLens.Concrete
