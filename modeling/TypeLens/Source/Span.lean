/-!
Regions of source text: lines and columns count from one, and the end column is the one just past
the last character. A region without all four numbers stands for code that nobody wrote.
-/

namespace TypeLens

/-- A line and a column. -/
structure Point where
  line : Int
  column : Int
deriving DecidableEq, Repr

/-- Reading order of points. -/
def Point.le (a b : Point) : Bool :=
  a.line < b.line || (a.line == b.line && a.column ≤ b.column)

/-- The four numbers of a region that is really there. -/
structure Extent where
  line : Int
  column : Int
  endLine : Int
  endColumn : Int
deriving DecidableEq, Repr

structure Span where
  file : Option String := none
  line : Option Int := none
  column : Option Int := none
  endLine : Option Int := none
  endColumn : Option Int := none
deriving DecidableEq, Repr, Inhabited

namespace Span

/-- The span of code that was generated. -/
def unknown : Span := {}

def start (s : Span) : Point := ⟨s.line.getD 0, s.column.getD 0⟩

def stop (s : Span) : Point := ⟨s.endLine.getD 0, s.endColumn.getD 0⟩

/-- The region's numbers, if all are known and it starts at a real character. -/
def extent (s : Span) : Option Extent :=
  match s.line, s.column, s.endLine, s.endColumn with
  | some l, some c, some el, some ec => if 0 < l ∧ 0 < c then some ⟨l, c, el, ec⟩ else none
  | _, _, _, _ => none

/-- A good span points at real source text. -/
def good (s : Span) : Bool := s.extent.isSome

/-- A good span contains the points from its start to its end, both included. -/
def contains (s : Span) (p : Point) : Bool :=
  s.good && s.start.le p && p.le s.stop

/-- One good span lies within another of the same file. -/
def within (s t : Span) : Bool :=
  s.good && t.good && s.file == t.file && t.start.le s.start && s.stop.le t.stop

/-- From the start of one span to the end of another; a span that is not good gives way. -/
def cover (first last : Span) : Span :=
  if !first.good then last
  else if !last.good then first
  else { first with endLine := last.endLine, endColumn := last.endColumn }

/-- Below zero if `a` lies within `b`, above zero if only `b` lies within `a`, else zero. -/
def compare (a b : Span) : Int :=
  if a.within b then -1 else if b.within a then 1 else 0

def withFile (s : Span) (file : Option String) : Span := { s with file }

/-- `file:line:column` of a good span, the file alone of any other. -/
def render (s : Span) : String :=
  if s.good then
    let place := toString s.start.line ++ ":" ++ toString s.start.column
    match s.file with
    | some f => if f.isEmpty then place else f ++ ":" ++ place
    | none => place
  else
    match s.file with
    | some f => if f.isEmpty then "<no location info>" else f
    | none => "<no location info>"

/-- Where a syntax node says it comes from. -/
inductive Origin
  | missing
  | known (s : Span)
  | node (line column endLine endColumn : Option Int) (empty : Bool)

/-- The span of an origin in `file`; one that is known keeps its own file. -/
def ofOrigin (file : Option String) : Origin → Span
  | .missing => { file }
  | .known s => s
  | .node l c el ec empty =>
    if empty then { file } else { file, line := l, column := c, endLine := el, endColumn := ec }

end Span

end TypeLens
