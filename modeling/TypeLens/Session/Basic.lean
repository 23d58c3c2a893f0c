import TypeLens.Info
import TypeLens.Prelude
import TypeLens.Session.ModuleGraph

/-!
A session: targets, the modules that were loaded for them, the module in whose scope identifiers are
looked up, and the bundled module, which is read when it is needed for the first time.
-/

namespace TypeLens

/-- A module of the graph with what checking it gave. -/
structure Loaded where
  summary : Summary
  checked : Checked

structure Session where
  config : Config
  targets : List Target := []
  /-- Each module stands after those it imports. -/
  loaded : List Loaded := []
  context : Option String := none
  /-- The bundled module, once it has been read. -/
  kept : Option Checked := none

/-- Work in a session. What it has done by the time it fails stays done. -/
abbrev SessionM := ExceptT Failure (StateM Session)

/-- A file that was read for a module. -/
structure Parsed where
  summary : Summary
  source : Surface.Module

/-- A text with the ending of source files, or with the name of a file, is a file. -/
def guessTarget (fs : Files) (text : String) : Except Failure Target := do
  let p := Path.ofString text
  if ".hs".toList.isSuffixOf text.toList then return .file p
  return if ← fs.isFile p then .file p else .module text

namespace Session

def lookup? (loaded : List Loaded) (module : String) : Option Checked :=
  (loaded.find? fun l => l.summary.module == module).map fun l => l.checked

def graph (s : Session) : List Summary := s.loaded.map fun l => l.summary

def checked? (s : Session) (module : String) : Option Checked := lookup? s.loaded module

def notLoaded (module : String) (phase : Phase) : Failure :=
  .single { message := "module '" ++ module ++ "' is not loaded", phase := some phase }

/-- The bundled module as it was read before, or as it is read now. -/
def bundled (s : Session) : Except Failure Checked :=
  match s.kept with
  | some c => .ok c
  | none => Prelude.read s.config.tabWidth

/-- Reads the bundled module, unless that has been done. -/
def readBundled : SessionM Checked := do
  let c ← ofExcept (← get).bundled
  modify ({ · with kept := some c })
  return c

-- Targets and loading

def setTargets (targets : List Target) : SessionM Unit := modify ({ · with targets })

/-- The names of the modules that a module imports, the bundled one first if it goes unsaid. -/
def importNames (c : Config) (m : Surface.Module) : List String :=
  let names := m.imports.map fun i => i.module
  if c.implicitPrelude && m.name != preludeModule && !names.contains preludeModule then
    preludeModule :: names
  else names

def exportsOf (module : String) : SessionM Exports := do
  if module = preludeModule then return (← readBundled).exports
  match (← get).checked? module with
  | some c => return c.exports
  | none => throw (notLoaded module .loader)

/-- Checks a module against the modules that it imports. -/
def check (m : Surface.Module) : SessionM Checked := do
  ofExcept (Check.module m (← (importNames (← get).config m).mapM exportsOf))

/-- Checks modules one after the other, up to the first that fails. -/
def checkAll : List ModuleGraph.Found → SessionM Unit
  | [] => return
  | f :: fs => do
    let checked ← check f.source
    modify fun s => { s with loaded := s.loaded ++ [⟨f.summary, checked⟩] }
    checkAll fs

/-- The context stays if its module is still there; else it is the last module. -/
def chooseContext (context : Option String) (loaded : List Loaded) : Option String :=
  if context.any fun m => (lookup? loaded m).isSome then context
  else loaded.getLast?.map fun l => l.summary.module

/-- Finds and checks the modules that the targets need, as far as they can be checked. -/
def loadTargets (fs : Files) : SessionM Unit := do
  modify ({ · with loaded := [] })
  let s ← get
  checkAll (← ofExcept (ModuleGraph.build fs s.config s.targets))

/-- Loads all targets anew. A fault in the source leaves no module; any other failure leaves those
that were checked before it. -/
def load (fs : Files) : SessionM Unit := do
  tryCatch (loadTargets fs) fun
    | .source ds => do
      modify ({ · with loaded := [] })
      throw (.source ds)
    | e => throw e
  modify fun s => { s with context := chooseContext s.context s.loaded }

/-- Reads the file of a module again. -/
def parseModule (fs : Files) (m : Summary) : SessionM Parsed := do
  match m.file with
  | some p => return ⟨m, ← ofExcept (Surface.parseFile fs (← get).config.tabWidth p.render)⟩
  | none =>
    throw (.single
      { message := "module '" ++ m.module ++ "' has no source file", phase := some .loader })

/-- The scope of a module becomes that of identifiers. -/
def setContext (module : String) : SessionM Unit := do
  if ((← get).checked? module).isSome then modify ({ · with context := some module })
  else throw (notLoaded module .interactive)

-- Identifiers

/-- What is in scope for identifiers; without a context that is the bundled module's scope. -/
def globals : SessionM Globals := do
  let s ← get
  match s.context.bind s.checked? with
  | some c => return c.globals
  | none => return (← readBundled).globals

/-- Names are rendered as the context sees them. -/
def policy : SessionM Policy := do return (← globals).scope.policy

def notInScope (text : String) : Failure :=
  .single
    { message := "Not in scope: '" ++ String.ofList (Text.trim text.toList) ++ "'"
      phase := some .interactive
      span := ⟨some NameQuery.interactive, some 1, some 1, some 1, some (text.length + 1)⟩ }

/-- Constructors are looked up as types, then as values; variables as values only. -/
def namesOf (g : Globals) : NameQuery → List Declared
  | .con n _ => g.scope.lookup .type n ++ g.scope.lookup .value n
  | .var n _ => g.scope.lookup .value n

/-- All names in scope that a text can mean. -/
def parseName (text : String) : SessionM (List Declared) := do
  let q ← ofExcept (NameQuery.parse text)
  let ns := namesOf (← globals) q
  if ns.isEmpty then throw (notInScope text)
  return ns

/-- The module that declares the names of a module. -/
def owner? (module : String) : SessionM (Option Globals) := do
  if module = preludeModule then return some (← readBundled).globals
  return ((← get).checked? module).map fun c => c.globals

/-- What a name denotes in the module that declares it. -/
def entity? (n : Name) : SessionM (Option Entity) := do
  return (← owner? n.module).bind fun g => g.entity? n

/-- The fixity that the context knows of, else that in the name's own module. -/
def fixityOf (context : Globals) (owner : Option Globals) (n : Name) : Fixity :=
  match context.fixities.get? n with
  | some f => f
  | none => (owner.map fun g => g.fixityOf n).getD .default

/-- The instances of a class or a type constructor in the context. -/
def instancesOf (context : Globals) : Entity → Name → List Instance
  | .typeClass _, n => context.instancesOfClass n
  | .tyCon _, n => context.instancesOfTyCon n
  | _, _ => []

def info? (n : Name) : SessionM (Option Info) := do
  let owner ← owner? n.module
  match owner.bind fun g => g.entity? n with
  | none => return none
  | some e =>
    let context ← globals
    return some ⟨e, fixityOf context owner n, instancesOf context e n⟩

/-- Describes all that a text refers to. -/
def describe (text : String) : SessionM String := do
  let infos ← (← parseName text).mapM fun d => info? d.name
  return Info.renderAll (← policy) (Info.withoutChildren (infos.filterMap id))

end Session

end TypeLens
