import TypeLens.Failure
import TypeLens.Layout
import TypeLens.Lex.Lexer
import TypeLens.Surface.Build
import TypeLens.Text.Blank
import TypeLens.Text.Quoted

/-!
From text to surface trees. The first fault in the order of the tokens is the one that is reported;
what is wrong with a tree whose tokens are in order comes last.
-/

namespace TypeLens

/-- A text that is not in the grammar. -/
inductive SyntaxError
  | lexical (c : Char) (at_ : Position)
  | unexpected (t : Token)
  /-- The text ends too early, after the token at `last`. -/
  | unexpectedEnd (last : Position)
deriving DecidableEq, Repr

namespace SyntaxError

/-- What is said of the end of the text, and of tokens that layout made. -/
def endMessage : String :=
  "parse error (possibly incorrect indentation or mismatched brackets)"

def message : SyntaxError → String
  | .lexical c _ => "lexical error at character " ++ Text.quoted c
  | .unexpected t =>
    if t.text.isEmpty then endMessage else "parse error on input '" ++ t.text ++ "'"
  | .unexpectedEnd _ => endMessage

def position : SyntaxError → Position
  | .lexical _ p => p
  | .unexpected t => t.region.start
  | .unexpectedEnd p => p

/-- The span has a start only. -/
def diagnostic (file : Option String) (e : SyntaxError) : Diagnostic :=
  { message := e.message, phase := some .parser,
    span := { file, line := some e.position.line, column := some e.position.column } }

end SyntaxError

namespace Surface

/-- The outcome of reading `ts`, after which the text may go on with a character that begins no
token. -/
def conclude {α : Type} (ts : List Token) (failure : Option (Char × Position)) :
    Except (List Token) α → Except SyntaxError α
  | .error (t :: _) => .error (.unexpected t)
  | .error [] =>
    match failure with
    | some (c, p) => .error (.lexical c p)
    | none => .error (.unexpectedEnd (ts.getLast?.elim .first (·.region.start)))
  | .ok a =>
    match failure with
    | some (c, p) => .error (.lexical c p)
    | none => .ok a

/-- The tokens that the grammar sees. -/
def layoutTokens (tabWidth : Int) (l : Lex.Lexed) : List Token :=
  if l.failure.isSome then Layout.processOpen tabWidth l.tokens
  else Layout.process tabWidth l.tokens

/-- The concrete tree of a module's text. -/
def readModule (tabWidth : Int) (source : String) : Except SyntaxError Concrete.Module :=
  let lexed := Lex.lex source.toList
  let ts := layoutTokens tabWidth lexed
  conclude ts lexed.failure (Concrete.Module.parse ts)

def Fault.failure : Fault → Failure
  | .misuse m loc => .single { message := m.message, phase := some .parser, span := loc }
  | .literalTooLong => .literalTooLong
  | .badString e => .badString e

/-- The failure of a text that needs an indentation to be measured, though none can be. What is
wrong before that comes first. -/
def unmeasured? (file : Option String) (source : String) : Option Failure :=
  (Layout.beforeIndent {} (Lex.lex source.toList).tokens).map fun ts =>
    match Concrete.Module.parse ts with
    | .error (t :: _) => .single ((SyntaxError.unexpected t).diagnostic file)
    | _ => .tabWidthOutOfRange

def parseModule (tabWidth : Int) (file : Option String) (source : String) :
    Except Failure Module :=
  match if Layout.isMeasurable tabWidth then none else unmeasured? file source with
  | some f => .error f
  | none =>
    match readModule tabWidth source with
    | .error e => .error (.single (e.diagnostic file))
    | .ok c => (buildModule file c).mapError Fault.failure

end Surface

/-- An identifier that somebody asks about. -/
inductive NameQuery
  | var (name : String) (loc : Span)
  | con (name : String) (loc : Span)
deriving DecidableEq, Repr

namespace NameQuery

open Concrete Concrete.Parser

/-- The file of text that somebody typed. -/
def interactive : String := "<interactive>"

/-- A query is one line, and words that belong to declarations alone are ordinary names in it. -/
def tokenKind? : Terminal → Option Terminal
  | .newline => none
  | .kwModule | .kwImport | .kwData | .kwPrimitive | .kwInfixl | .kwInfixr | .kwInfix | .kwClass
  | .kwWhere | .kwInstance => some .varid
  | .bar | .fatArrow | .doubleColon => some .operator
  | k => some k

/-- The pieces up to the first one that is no token here, and the text from there on. -/
def pieces : List Lex.Piece → List Lex.Piece × List Char
  | [] => ([], [])
  | ⟨.token k, text⟩ :: ps =>
    match tokenKind? k with
    | some k' => (pieces ps).map (⟨.token k', text⟩ :: ·) id
    | none => ([], text)
  | p :: ps => (pieces ps).map (p :: ·) id

def lex (text : List Char) : Lex.Lexed :=
  let r := Lex.pieces text
  let q := pieces r.1
  ⟨Lex.tokensFrom .first q.1,
    (q.2 ++ r.2).head?.map fun c => (c, Position.first.after (q.1.flatMap (·.text)))⟩

inductive Tree
  | var (t : Tok .varid)
  | con (t : Tok .conid)
  | op (t : Tok .operator)
  | parens (l : Tok .lparen) (t : Tok .operator) (r : Tok .rparen)
  | list (l : Tok .lbracket) (r : Tok .rbracket)

def Tree.yield : Tree → List Token
  | .var t => [t.token]
  | .con t => [t.token]
  | .op t => [t.token]
  | .parens l t r => [l.token, t.token, r.token]
  | .list l r => [l.token, r.token]

def tree : Parser Tree := peek fun
  | some .varid => do return .var (← tok .varid)
  | some .conid => do return .con (← tok .conid)
  | some .operator => do return .op (← tok .operator)
  | some .lparen => do
    let l ← tok .lparen
    let t ← tok .operator
    return .parens l t (← tok .rparen)
  | some .lbracket => do
    let l ← tok .lbracket
    return .list l (← tok .rbracket)
  | _ => fail

def readTree (ts : List Token) : Except (List Token) Tree :=
  match tree ts with
  | .ok (t, []) => .ok t
  | .ok (_, rest) => .error rest
  | .error rest => .error rest

/-- Constructor operators and `[]` are constructors. -/
def ofTree (t : Tree) : NameQuery :=
  let loc := Surface.spanOf (some interactive) t.yield
  let ofOperator (op : String) : NameQuery := if isConOperator op then .con op loc else .var op loc
  match t with
  | .var t => .var t.text loc
  | .con t => .con t.text loc
  | .op t => ofOperator t.text
  | .parens _ t _ => ofOperator t.text
  | .list _ _ => .con "[]" loc

/-- Reads a name with blanks around it. -/
def parse (text : String) : Except Failure NameQuery :=
  let lexed := lex (Text.trim text.toList)
  match Surface.conclude lexed.tokens lexed.failure (readTree lexed.tokens) with
  | .ok t => .ok (ofTree t)
  | .error e => .error (.single (e.diagnostic (some interactive)))

end NameQuery

end TypeLens
