import TypeLens.Source.Span

namespace TypeLens

/-- The kinds of token; `itemSep`, `blockOpen` and `blockClose` come from layout alone. -/
inductive Terminal
  | kwModule | kwImport | kwData | kwPrimitive | kwInfixl | kwInfixr | kwInfix | kwClass | kwWhere
  | kwInstance | kwLet | kwIn | kwIf | kwThen | kwElse | kwCase | kwOf
  | wildcard | equals | bar | arrow | fatArrow | doubleColon | backslash
  | conid | varid | operator | int | string
  | lparen | rparen | lbracket | rbracket | lbrace | rbrace | comma | semi
  | newline | itemSep | blockOpen | blockClose
deriving DecidableEq, Repr

/-- Lines and columns count from one; columns count characters. -/
structure Position where
  line : Nat
  column : Nat
deriving DecidableEq, Repr

/-- The first character and the place just past the last one. -/
structure Region where
  start : Position
  stop : Position
deriving DecidableEq, Repr

def Region.span (file : Option String) (r : Region) : Span :=
  { file, line := some r.start.line, column := some r.start.column,
    endLine := some r.stop.line, endColumn := some r.stop.column }

/-- From the start of one region to the end of another. -/
def Region.through (a b : Region) : Region := ⟨a.start, b.stop⟩

structure Token where
  kind : Terminal
  text : String
  region : Region
deriving DecidableEq, Repr

namespace Position

def first : Position := ⟨1, 1⟩

def next (p : Position) (c : Char) : Position :=
  if c = '\n' then ⟨p.line + 1, 1⟩ else ⟨p.line, p.column + 1⟩

/-- The position after a text. -/
def after (p : Position) (cs : List Char) : Position := cs.foldl next p

end Position

/-- Words and operators that are tokens of their own. -/
def keyword? (text : String) : Option Terminal :=
  [("module", Terminal.kwModule), ("import", .kwImport), ("data", .kwData),
    ("primitive", .kwPrimitive), ("infixl", .kwInfixl), ("infixr", .kwInfixr), ("infix", .kwInfix),
    ("class", .kwClass), ("where", .kwWhere), ("instance", .kwInstance), ("let", .kwLet),
    ("in", .kwIn), ("if", .kwIf), ("then", .kwThen), ("else", .kwElse), ("case", .kwCase),
    ("of", .kwOf), ("_", .wildcard), ("=", .equals), ("|", .bar), ("->", .arrow),
    ("=>", .fatArrow), ("::", .doubleColon), ("\\", .backslash)].lookup text

end TypeLens
