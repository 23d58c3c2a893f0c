import TypeLens.CommandLine.Run

/-!
The program: it reads the files that a command can need, and writes what running the command gives.
-/

namespace TypeLens.CommandLine

/-- The files in which a module can be. -/
def modulePaths (c : Config) (module : String) (near : Option Path) : List Path :=
  match moduleFile module with
  | .ok file => (searchDirs c near).filterMap fun dir => dir.map (·.join file)
  | .error _ => []

/-- Where the file of a command can be, as a file and as a module. -/
def startPaths (a : Arguments) : List Path :=
  a.command.file :: modulePaths a.config a.command.file.render none

/-- Where the imports of a file can be. -/
def importPaths (fs : Files) (c : Config) (p : Path) : List Path :=
  match Surface.parseFile fs c.tabWidth p.render with
  | .ok m => m.imports.flatMap fun i => modulePaths c i.module (some p)
  | .error _ => []

def readFile? (p : Path) : IO (Option (List UInt8)) := do
  try return some (← IO.FS.readBinFile p.render).toList
  catch _ => return none

/-- Reads the files at some paths and all that they lead to. -/
partial def gather (c : Config) (fs : Files) (tried : List Path) : List Path → IO Files
  | [] => return fs
  | p :: ps => do
    if tried.contains p then gather c fs tried ps
    else
      match ← readFile? p with
      | none => gather c fs (p :: tried) ps
      | some content =>
        let fs := fs.write p content
        gather c fs (p :: tried) (ps ++ importPaths fs c p)

def readFiles (args : List String) : IO Files :=
  match parse args with
  | .ok a => gather a.config [] [] (startPaths a)
  | .error _ => return []

def helpText : String :=
  "usage: typelens [-h] [-i DIR] [--no-implicit-prelude] [--tab-width N] [--json] COMMAND\n\n" ++
  "commands:\n" ++
  "  info FILE IDENTIFIER  describe an identifier\n" ++
  "  type FILE LINE COL    types of the fragments around a point\n"

def failureText : Failure → String
  | .source ds => Diagnostic.renderAll ds
  | .literalTooLong => "an integer literal has too many digits"
  | .badString _ => "a string literal has no value"
  | .emptyModuleName => "a module name is empty"
  | .badFileName e => "a file cannot be looked up: " ++ e.message
  | .tabWidthOutOfRange => "the tab width is out of range"
  | .missing _ => "a value is missing"

end TypeLens.CommandLine

open TypeLens CommandLine in
def main (args : List String) : IO UInt32 := do
  match run (← readFiles args) args with
  | .usage .help =>
    IO.print helpText
    return 0
  | .usage .wrong =>
    IO.eprint helpText
    return 2
  | .failed f =>
    IO.eprintln (failureText f)
    return 1
  | .done exitCode output errors =>
    IO.print output
    IO.eprint errors
    return exitCode.toUInt32
