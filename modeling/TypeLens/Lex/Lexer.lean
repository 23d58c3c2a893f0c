import TypeLens.Lex.Token

/-!
Source text as pieces: blanks, comments and tokens, each as long as its class allows. The texts of
the pieces and what is left after the last one make up the source.
-/

namespace TypeLens.Lex

def isLower (c : Char) : Bool := 'a' ≤ c && c ≤ 'z'

def isUpper (c : Char) : Bool := 'A' ≤ c && c ≤ 'Z'

def isDigit (c : Char) : Bool := '0' ≤ c && c ≤ '9'

/-- Characters after the first one of a word. -/
def isWordChar (c : Char) : Bool := isLower c || isUpper c || isDigit c || c == '_' || c == '\''

def isOperatorChar (c : Char) : Bool := "!#$%&*+./<=>?@\\^|~:-".toList.contains c

def isSpace (c : Char) : Bool := c == ' ' || c == '\t' || c == '\x0c'

/-- Tokens of one character. -/
def bracket? : Char → Option Terminal
  | '(' => some .lparen
  | ')' => some .rparen
  | '[' => some .lbracket
  | ']' => some .rbracket
  | '{' => some .lbrace
  | '}' => some .rbrace
  | ',' => some .comma
  | ';' => some .semi
  | _ => none

inductive PieceKind
  | blank
  | comment
  | token (kind : Terminal)
deriving DecidableEq, Repr

structure Piece where
  kind : PieceKind
  text : List Char
deriving DecidableEq, Repr

/-- Line ends with the indentation after each, and the rest. -/
def breaks : List Char → List Char × List Char
  | '\n' :: cs => (breaks cs).map ('\n' :: ·) id
  | '\r' :: '\n' :: cs => (breaks cs).map ('\r' :: '\n' :: ·) id
  | ' ' :: cs => (breaks cs).map (' ' :: ·) id
  | '\t' :: cs => (breaks cs).map ('\t' :: ·) id
  | cs => ([], cs)

/-- A string up to its closing quote, and the rest; strings do not cross lines. -/
def stringBody? : List Char → Option (List Char × List Char)
  | [] => none
  | '"' :: cs => some (['"'], cs)
  | '\n' :: _ => none
  | '\\' :: c :: cs =>
    if c = '\n' then none else (stringBody? cs).map (·.map ('\\' :: c :: ·) id)
  | c :: cs => if c = '\\' then none else (stringBody? cs).map (·.map (c :: ·) id)

/-- A piece of the characters that satisfy `p`. -/
def run (kind : List Char → PieceKind) (p : Char → Bool) (cs : List Char) :
    Piece × List Char :=
  let text := cs.takeWhile p
  (⟨kind text, text⟩, cs.dropWhile p)

/-- A class of words, some of which are keywords. -/
def wordKind (kind : Terminal) (text : List Char) : PieceKind :=
  .token ((keyword? (String.ofList text)).getD kind)

/-- The first piece and the rest, unless no piece begins here. -/
def piece? : List Char → Option (Piece × List Char)
  | [] => none
  | '-' :: '-' :: cs => some (run (fun _ => .comment) (· ≠ '\n') ('-' :: '-' :: cs))
  | '\r' :: '\n' :: cs =>
    let r := breaks ('\r' :: '\n' :: cs)
    some (⟨.token .newline, r.1⟩, r.2)
  | c :: cs =>
    if c = '\n' then
      let r := breaks (c :: cs)
      some (⟨.token .newline, r.1⟩, r.2)
    else if c = '"' then
      (stringBody? cs).map fun r => (⟨.token .string, c :: r.1⟩, r.2)
    else if isSpace c then some (run (fun _ => .blank) isSpace (c :: cs))
    else if isUpper c then some (run (fun _ => .token .conid) isWordChar (c :: cs))
    else if isLower c || c == '_' then some (run (wordKind .varid) isWordChar (c :: cs))
    else if isDigit c then some (run (fun _ => .token .int) isDigit (c :: cs))
    else if isOperatorChar c then some (run (wordKind .operator) isOperatorChar (c :: cs))
    else (bracket? c).map fun k => (⟨.token k, [c]⟩, cs)

/-- At most `fuel` pieces, and the rest. -/
def piecesWithin : Nat → List Char → List Piece × List Char
  | 0, cs => ([], cs)
  | fuel + 1, cs =>
    match piece? cs with
    | some (p, rest) => (piecesWithin fuel rest).map (p :: ·) id
    | none => ([], cs)

/-- All pieces from the start, and the text from the first character that begins none. -/
def pieces (cs : List Char) : List Piece × List Char := piecesWithin cs.length cs

/-- The tokens among the pieces, each with its region. -/
def tokensFrom (p : Position) : List Piece → List Token
  | [] => []
  | ⟨.token kind, text⟩ :: ps =>
    ⟨kind, String.ofList text, ⟨p, p.after text⟩⟩ :: tokensFrom (p.after text) ps
  | ⟨_, text⟩ :: ps => tokensFrom (p.after text) ps

/-- The tokens of a text and, where lexing stops early, the offending character and its position. -/
structure Lexed where
  tokens : List Token
  failure : Option (Char × Position)
deriving DecidableEq, Repr

def lex (source : List Char) : Lexed :=
  let r := pieces source
  ⟨tokensFrom .first r.1,
    r.2.head?.map fun c => (c, Position.first.after (r.1.flatMap (·.text)))⟩

end TypeLens.Lex
