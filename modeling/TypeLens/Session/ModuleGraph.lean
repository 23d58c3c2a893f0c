import TypeLens.Files.Source
import TypeLens.Graph

/-!
The modules that targets need: those of the targets, and all that they import, found next to the
file that imports them or under the import paths.
-/

namespace TypeLens

/-- What to load. -/
inductive Target
  | file (p : Path)
  | module (name : String)
  /-- Names nothing, and is looked for under the name `None`. -/
  | nothing
deriving DecidableEq, Repr

/-- Where a value was left out, work that needs it fails. -/
structure Config where
  importPaths : List (Option Path) := []
  /-- Modules that do not say so import the bundled module too. -/
  implicitPrelude : Bool := true
  tabWidth : Option Int := some 8
deriving Repr

/-- A module with its file and the modules it imports, the bundled one left out. -/
structure Summary where
  module : String
  file : Option Path
  imports : List String
deriving DecidableEq, Repr

/-- Diagnostics of the loader have no code. -/
def loaderProblem (message : String) (span : Span) (notes : List String) : Diagnostic :=
  { message, phase := some .loader, span, notes }

/-- The path of a module's file below the directory where it is looked for. -/
def moduleFile (module : String) : Except Failure Path :=
  let p := ((Text.splitString '.' module).map Path.ofString).foldl Path.join .here
  match p.addSuffix ".hs" with
  | some p => .ok p
  | none => .error .emptyModuleName

/-- The directories in which a module is looked for. -/
def searchDirs (c : Config) (near : Option Path) : List (Option Path) :=
  let dirs := (near.map fun p => some p.parent).toList ++ c.importPaths
  if dirs.isEmpty then [some .here] else dirs

/-- The first place of a file among some directories. -/
def findIn (fs : Files) (file : Path) : List (Option Path) → Except Failure (Option Path)
  | [] => .ok none
  | none :: _ => .error (.missing .importPath)
  | some dir :: dirs => do
    if ← fs.isFile (dir.join file) then return some (dir.join file)
    findIn fs file dirs

def findModule (fs : Files) (c : Config) (module : String) (near : Option Path) :
    Except Failure (Option Path) := do
  findIn fs (← moduleFile module) (searchDirs c near)

namespace ModuleGraph

/-- A module that was found. -/
structure Found where
  summary : Summary
  source : Surface.Module

/-- A file that is still to be read, the module that it should hold, and where that is imported. -/
structure Request where
  path : Path
  expected : Option String
  loc : Span

structure Scan where
  modules : Table String Found := []
  problems : List Diagnostic := []

def Scan.add (s : Scan) (d : Diagnostic) : Scan := { s with problems := s.problems ++ [d] }

def notFound (module : String) (loc : Span) : Diagnostic :=
  loaderProblem ("Could not find module '" ++ module ++ "'") loc []

/-- The request for a module, unless it cannot be found. -/
def requestModule (fs : Files) (c : Config) (s : Scan) (module : String)
    (expected : Option String) (near : Option Path) (loc : Span) :
    Except Failure (Scan × List Request) := do
  match ← findModule fs c module near with
  | some p => return (s, [⟨p, expected, loc⟩])
  | none => return (s.add (notFound module loc), [])

def requestTarget (fs : Files) (c : Config) (s : Scan) :
    Target → Except Failure (Scan × List Request)
  | .file p => .ok (s, [⟨p, none, .unknown⟩])
  | .module m => requestModule fs c s m (some m) none .unknown
  | .nothing => requestModule fs c s "None" none none .unknown

def requestTargets (fs : Files) (c : Config) :
    Scan → List Target → Except Failure (Scan × List Request)
  | s, [] => .ok (s, [])
  | s, t :: ts => do
    let (s, rs) ← requestTarget fs c s t
    let (s, rs') ← requestTargets fs c s ts
    return (s, rs ++ rs')

/-- Requests for the imports that have not been found yet. -/
def requestImports (fs : Files) (c : Config) (near : Path) :
    Scan → List Surface.ImportDecl → Except Failure (Scan × List Request)
  | s, [] => .ok (s, [])
  | s, i :: is => do
    if i.module = preludeModule || s.modules.contains i.module then requestImports fs c near s is
    else
      let (s, rs) ← requestModule fs c s i.module (some i.module) (some near) i.loc
      let (s, rs') ← requestImports fs c near s is
      return (s, rs ++ rs')

def wrongName (m : Surface.Module) : Diagnostic :=
  loaderProblem ("file name does not match module name '" ++ m.name ++ "'") m.headerLoc []

def definedTwice (m : Surface.Module) (first second : Path) : Diagnostic :=
  loaderProblem ("module '" ++ m.name ++ "' is defined in multiple files") m.headerLoc
    [first.render, second.render]

/-- Files a module that came with a request. -/
def addModule (fs : Files) (c : Config) (s : Scan) (r : Request) (m : Surface.Module) :
    Except Failure (Scan × List Request) :=
  if r.expected.any (· != m.name) then .ok (s.add (wrongName m), [])
  else
    match s.modules.get? m.name with
    | some known =>
      match known.summary.file with
      | some p =>
        .ok (if p.resolve = r.path.resolve then s else s.add (definedTwice m p r.path), [])
      | none => .ok (s, [])
    | none =>
      let imports := (m.imports.map (·.module)).filter (· != preludeModule)
      let found : Found := ⟨⟨m.name, some r.path, imports⟩, m⟩
      requestImports fs c r.path { s with modules := s.modules.put m.name found } m.imports

/-- Deals with a request and returns those that it leads to. -/
def serve (fs : Files) (c : Config) (s : Scan) (r : Request) :
    Except Failure (Scan × List Request) := do
  if ← fs.isFile r.path then
    addModule fs c s r (← Surface.parseFile fs c.tabWidth r.path.render)
  else return (s.add (loaderProblem ("can't find file: " ++ r.path.render) r.loc []), [])

def serveAll (fs : Files) (c : Config) :
    Scan → List Request → Except Failure (Scan × List Request)
  | s, [] => .ok (s, [])
  | s, r :: rs => do
    let (s, new) ← serve fs c s r
    let (s, new') ← serveAll fs c s rs
    return (s, new ++ new')

/-- At most `n` rounds, each with the requests that the round before it led to. -/
def rounds (fs : Files) (c : Config) : Nat → Scan → List Request → Except Failure Scan
  | 0, s, _ => .ok s
  | n + 1, s, rs => do
    if rs.isEmpty then return s
    let (s, rs) ← serveAll fs c s rs
    rounds fs c n s rs

/-- All modules that the targets need. A round without requests follows when no file is new. -/
def scan (fs : Files) (c : Config) (targets : List Target) : Except Failure Scan := do
  let (s, rs) ← requestTargets fs c {} targets
  rounds fs c (fs.length + 1) s rs

/-- The modules that are imported, of those that were found. -/
def importsOf (ms : Table String Found) (module : String) : List String :=
  match ms.get? module with
  | some f => f.summary.imports.filter ms.contains
  | none => []

/-- Neighbours in a list. -/
def steps : List String → List (String × String)
  | a :: b :: ms => (a, b) :: steps (b :: ms)
  | _ => []

/-- Where a module imports another one, or its header. -/
def importLoc (m : Surface.Module) (module : String) : Span :=
  ((m.imports.find? fun i => i.module == module).map fun i => i.loc).getD m.headerLoc

/-- A cycle is reported where its first module imports the second. -/
def cycleProblem (ms : Table String Found) (cycle : List String) : Diagnostic :=
  let loc : Option Span := do
    let first ← ms.get? (← cycle.head?)
    return importLoc first.source (← (cycle.drop 1).head?)
  loaderProblem ("import cycle detected: " ++ " -> ".intercalate cycle) (loc.getD .unknown)
    ((steps cycle).map fun s => s.1 ++ " imports " ++ s.2)

/-- What is wrong with the modules of a scan. -/
def Scan.verdict (s : Scan) : List Diagnostic :=
  if s.problems.isEmpty then
    match Graph.findCycle (importsOf s.modules) s.modules.keys with
    | some cycle => [cycleProblem s.modules cycle]
    | none => []
  else s.problems

/-- The modules of a scan, each after those it imports. -/
def Scan.ordered (s : Scan) : List Found :=
  (Graph.finishOrder (importsOf s.modules) s.modules.length s.modules.keys).filterMap
    s.modules.get?

/-- The modules that the targets need, each after those it imports. -/
def build (fs : Files) (c : Config) (targets : List Target) : Except Failure (List Found) := do
  let s ← scan fs c targets
  if s.verdict.isEmpty then return s.ordered
  throw (.source s.verdict)

end ModuleGraph

end TypeLens
