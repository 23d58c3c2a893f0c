import TypeLens.Lex.Token

/-!
Layout: line ends become separators of items and the limits of `where` blocks. An item that starts
at its block's column is separated from the one before, a deeper line goes on with its item, and a
shallower one closes blocks. Line ends inside brackets do not count.
-/

namespace TypeLens.Layout

/-- The width of indentation with tab stops every `tabWidth` columns; without stops tabs vanish. -/
def indentWidth (tabWidth : Int) (cs : List Char) : Nat :=
  cs.foldl (fun col c =>
    if c = '\t' then
      if 0 < tabWidth then col + (tabWidth.toNat - col % tabWidth.toNat) else col
    else col + 1) 0

/-- The tab widths with which indentation can be measured. -/
def isMeasurable (tabWidth : Int) : Bool := -0x80000000 ≤ tabWidth && tabWidth < 0x80000000

/-- The text after the last line feed. -/
def lastLine (cs : List Char) : List Char := (cs.reverse.takeWhile (· ≠ '\n')).reverse

/-- The column that a line end indents to. -/
def indentOf (tabWidth : Int) (newline : Token) : Nat :=
  indentWidth tabWidth (lastLine newline.text.toList)

structure State where
  /-- The column of top-level items. -/
  base : Nat := 0
  /-- The columns of the open blocks, innermost first. -/
  blocks : List Nat := []
  /-- How many brackets are open. -/
  depth : Nat := 0
  /-- The line end before the next token. -/
  pending : Option Token := none
  /-- The last token was `where`. -/
  expectBlock : Bool := false
  last : Option Token := none
deriving DecidableEq, Repr

namespace State

/-- The column of the innermost block. -/
def column (s : State) : Nat := s.blocks.head?.getD s.base

end State

/-- A token without text at the place of the last real one. -/
def synthetic (kind : Terminal) (last : Token) : Token := ⟨kind, "", last.region⟩

/-- The column of a token: its indentation if it starts a line. -/
def columnOf (tabWidth : Int) (pending : Option Token) (t : Token) : Nat :=
  match pending with
  | some n => indentOf tabWidth n
  | none => t.region.start.column - 1

/-- Blocks that stay open at an indentation, and one closing token for each of the others. -/
def closeBlocks (indent : Nat) (last : Token) : List Nat → List Token × List Nat
  | [] => ([], [])
  | b :: bs =>
    if indent < b then (closeBlocks indent last bs).map (synthetic .blockClose last :: ·) id
    else ([], b :: bs)

/-- The first token of all fixes the top-level column. -/
def begin (tabWidth : Int) (s : State) (t : Token) : State :=
  match s.last with
  | none => { s with base := columnOf tabWidth s.pending t, pending := none }
  | some _ => s

/-- After `where` a block opens, and closes at once unless the token is deeper than its parent. -/
def openBlock (tabWidth : Int) (s : State) (t : Token) : List Token × State :=
  match s.last with
  | some last =>
    if s.expectBlock then
      let column := columnOf tabWidth s.pending t
      if s.column < column then
        ([synthetic .blockOpen last],
          { s with expectBlock := false, blocks := column :: s.blocks, pending := none })
      else
        ([synthetic .blockOpen last, synthetic .blockClose last], { s with expectBlock := false })
    else ([], s)
  | none => ([], s)

/-- A line end closes deeper blocks and separates items of the block it comes back to. -/
def startLine (tabWidth : Int) (s : State) : List Token × State :=
  match s.pending, s.last with
  | some n, some last =>
    let indent := indentOf tabWidth n
    let r := closeBlocks indent last s.blocks
    let s' := { s with pending := none, blocks := r.2 }
    (r.1 ++ (if indent = s'.column then [synthetic .itemSep last] else []), s')
  | _, _ => ([], s)

/-- The state after a real token. -/
def shift (s : State) (t : Token) : State :=
  let s := { s with last := some t }
  match t.kind with
  | .lparen | .lbracket | .lbrace => { s with depth := s.depth + 1 }
  | .rparen | .rbracket | .rbrace => { s with depth := s.depth - 1 }
  | .kwWhere => { s with expectBlock := true }
  | _ => s

/-- What one token adds to the output. -/
def step (tabWidth : Int) (s : State) (t : Token) : List Token × State :=
  if t.kind = .newline then
    ([], if s.depth = 0 then { s with pending := some t } else s)
  else
    let opened := openBlock tabWidth (begin tabWidth s t) t
    let started := startLine tabWidth opened.2
    (opened.1 ++ started.1 ++ [t], shift started.2 t)

/-- The output for a list of tokens, and the state after it. -/
def run (tabWidth : Int) (s : State) : List Token → List Token × State
  | [] => ([], s)
  | t :: ts =>
    let r := step tabWidth s t
    let rest := run tabWidth r.2 ts
    (r.1 ++ rest.1, rest.2)

/-- The output before the first indentation is measured, unless none has to be. -/
def beforeIndent (s : State) : List Token → Option (List Token)
  | [] => none
  | t :: ts =>
    if s.pending.isSome && t.kind ≠ .newline then
      some ((s.last.filter fun _ => s.expectBlock).toList.map (synthetic .blockOpen))
    else
      let r := step 0 s t
      (beforeIndent r.2 ts).map (r.1 ++ ·)

/-- At the end of the text all blocks close. -/
def finish (s : State) : List Token :=
  match s.last with
  | none => []
  | some last =>
    (if s.expectBlock then [synthetic .blockOpen last, synthetic .blockClose last] else [])
      ++ s.blocks.map fun _ => synthetic .blockClose last

/-- The tokens of a whole text with its layout made explicit. -/
def process (tabWidth : Int) (ts : List Token) : List Token :=
  let r := run tabWidth {} ts
  r.1 ++ finish r.2

/-- The tokens that are certain before the text goes on. -/
def processOpen (tabWidth : Int) (ts : List Token) : List Token := (run tabWidth {} ts).1

end TypeLens.Layout
