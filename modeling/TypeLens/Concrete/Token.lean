import TypeLens.Lex.Token

namespace TypeLens.Concrete

/-- A token of one kind. -/
structure Tok (kind : Terminal) where
  text : String
  region : Region
deriving DecidableEq, Repr

def Tok.token {k : Terminal} (t : Tok k) : Token := ⟨k, t.text, t.region⟩

/-- Items with a separator between two. -/
structure SepBy (sep : Terminal) (α : Type) where
  first : α
  more : List (Tok sep × α)

namespace SepBy

variable {sep : Terminal} {α : Type}

def items (s : SepBy sep α) : List α := s.first :: s.more.map Prod.snd

def yield (f : α → List Token) (s : SepBy sep α) : List Token :=
  f s.first ++ s.more.flatMap fun p => p.1.token :: f p.2

end SepBy

/-- Reads a front part of a list of tokens; a failure holds the tokens from the first wrong one
on. -/
def Parser (α : Type) := List Token → Except (List Token) (α × List Token)

namespace Parser

variable {α β : Type}

protected def pure (a : α) : Parser α := fun ts => .ok (a, ts)

protected def bind (p : Parser α) (f : α → Parser β) : Parser β := fun ts =>
  match p ts with
  | .ok (a, rest) => f a rest
  | .error e => .error e

instance : Monad Parser where
  pure := Parser.pure
  bind := Parser.bind

def fail : Parser α := fun ts => .error ts

/-- One token of the given kind. -/
def tok (k : Terminal) : Parser (Tok k)
  | t :: ts => if t.kind = k then .ok (⟨t.text, t.region⟩, ts) else .error (t :: ts)
  | [] => .error []

/-- Goes on as the kind of the next token says. -/
def peek (f : Option Terminal → Parser α) : Parser α := fun ts => f (ts.head?.map (·.kind)) ts

/-- Items as long as the next token can begin one, at most `fuel`. -/
def manyWithin (starts : Terminal → Bool) (p : Parser α) : Nat → Parser (List α)
  | 0 => .fail
  | fuel + 1 => .peek fun k =>
    if k.any starts then do
      let x ← p
      let xs ← manyWithin starts p fuel
      return x :: xs
    else .pure []

/-- Items as long as the next token can begin one. -/
def many (starts : Terminal → Bool) (p : Parser α) : Parser (List α) := fun ts =>
  manyWithin starts p (ts.length + 1) ts

/-- One item or more, with separators. -/
def sepBy (sep : Terminal) (p : Parser α) : Parser (SepBy sep α) := do
  let first ← p
  let more ← many (· = sep) do
    let s ← tok sep
    let x ← p
    return (s, x)
  return ⟨first, more⟩

/-- A budget of steps that is more than enough for the tokens that are left. -/
def budgeted (p : Nat → Parser α) : Parser α := fun ts => p (8 * (ts.length + 1)) ts

end Parser

end TypeLens.Concrete
