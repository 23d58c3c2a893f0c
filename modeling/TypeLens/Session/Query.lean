import TypeLens.Core.Lowering
import TypeLens.Fragment
import TypeLens.Session.Basic
import TypeLens.Typed.Node

/-!
The two questions about a file: what an identifier refers to, and which types there are at a point.
-/

namespace TypeLens

/-- Why a question has no answer. -/
inductive QueryError
  /-- The file cannot be loaded; the diagnostics are printed. -/
  | notLoaded (ds : List Diagnostic)
  | notInGraph
  /-- The question itself is at fault. -/
  | source (ds : List Diagnostic)
  /-- Something other than the source is at fault. -/
  | other (f : Failure)
deriving DecidableEq, Repr

namespace QueryError

def message : QueryError → String
  | .notLoaded _ => "Error loading targets"
  | .notInGraph => "Module not found in module graph"
  | .source ds => Diagnostic.renderAll ds
  | .other _ => ""

/-- What is printed before the answer. -/
def printed : QueryError → List Diagnostic
  | .notLoaded ds => ds
  | _ => []

def ofFailure : Failure → QueryError
  | .source ds => .source ds
  | f => .other f

end QueryError

/-- A question in a session. -/
abbrev QueryM := ExceptT QueryError (StateM Session)

/-- A point of which parts may have been left out. -/
structure PartialPoint where
  line : Option Int
  column : Option Int
deriving DecidableEq, Repr

namespace PartialPoint

def ofPoint (p : Point) : PartialPoint := ⟨some p.line, some p.column⟩

/-- Only the column of a point on the line can tell whether the span contains it. -/
def columnDecides (line : Int) (s : Span) : Bool :=
  s.extent.any fun e => e.line == line || (e.line < line && e.endLine == line)

/-- A point that is in the same spans, if what is left out does not matter. -/
def resolve (p : PartialPoint) (spans : List Span) : Except Failure Point :=
  match p.line, p.column with
  | some l, some c => .ok ⟨l, c⟩
  | some l, none =>
    if spans.any (columnDecides l) then .error (.missing .column) else .ok ⟨l, 0⟩
  | none, c => if spans.any Span.good then .error (.missing .line) else .ok ⟨0, c.getD 0⟩

end PartialPoint

namespace Session

def loadError : Failure → QueryError
  | .source ds => .notLoaded ds
  | f => .other f

/-- Loads a file as the only target. -/
def loadFile (fs : Files) (file : String) : SessionM Unit := do
  setTargets [← ofExcept (guessTarget fs file)]
  load fs

/-- Loads a file and finds its module. -/
def openFile (fs : Files) (file : String) : QueryM Summary := do
  (loadFile fs file).adapt loadError
  let path := (Path.ofString file).resolve
  match (← get).graph.find? fun m => m.file.any fun p => p.resolve == path with
  | some m => return m
  | none => throw .notInGraph

/-- Answers a question about the module of a file. -/
def ask {α : Type} (fs : Files) (file : String) (answer : Summary → SessionM α) : QueryM α := do
  let m ← openFile fs file
  (answer m).adapt .ofFailure

/-- Describes what an identifier refers to in the module of a file. -/
def info (fs : Files) (file : String) (text : Option String) : QueryM String :=
  ask fs file fun m => do
    setContext m.module
    match text with
    | some t => describe t
    | none => throw (.missing .identifier)

/-- Lowering looks up list constructors, and the failure of equations, in the bundled module unless
the module at hand has them. -/
def needsBundled (g : Globals) : Typed.Node → Bool
  | .expr (.list es _ _) =>
    (g.entity? Builtin.nilCon).isNone || (!es.isEmpty && (g.entity? Builtin.consCon).isNone)
  | .group _ => (g.entity? Builtin.patError).isNone
  | .bind (.pat ..) => (g.entity? Builtin.patError).isNone
  | _ => false

/-- What lowering knows of a module: its own environment first, then that of the session. -/
def coreContext (s : Session) (module : String) (g : Globals) : Core.Context :=
  let owner? (n : Name) : Option Checked :=
    if n.module = preludeModule then s.bundled.toOption else s.checked? n.module
  ⟨module, g.scope, fun n => g.entity? n <|> (owner? n).bind fun c => c.globals.entity? n⟩

/-- The typed fragments of a tree at a point; expressions that have no core term are left out, and
so are bindings other than functions. -/
def fragmentsOf (c : Core.Context) (hits : Typed.Hits) : List Fragment :=
  let expressions := hits.expressions.filterMap fun e =>
    (Core.typeOfExpr c e).toOption.map fun t => ⟨e.loc, t, .expression⟩
  let bindings := hits.bindings.filterMap fun
    | .fn _ g l => some ⟨l, g.ty, .binding⟩
    | _ => none
  expressions ++ bindings ++ hits.patterns.map fun p => ⟨p.loc, p.ty, .pattern⟩

/-- The types of all that contains a point, innermost first. -/
def typesAt (m : Summary) (c : Checked) (p : Point) : SessionM (List (Extent × String)) := do
  let hits := Typed.search c.binds p
  if hits.expressions.any fun e => e.nodes.any (needsBundled c.globals) then
    let _ ← readBundled
  return Fragment.order (fragmentsOf ((← get).coreContext m.module c.globals) hits)

/-- The types at a point of a file. -/
def types (fs : Files) (file : String) (p : PartialPoint) : QueryM (List (Extent × String)) :=
  ask fs file fun m => do
    let parsed ← parseModule fs m
    let c ← check parsed.source
    typesAt m c (← ofExcept (p.resolve (Typed.searched c.binds)))

end Session

end TypeLens
