import TypeLens.Surface.Parse

/-!
Modules in files.
-/

namespace TypeLens

/-- Whether there is a file at a path; a name that is too long is not looked up. -/
def Files.isFile (fs : Files) (p : Path) : Except Failure Bool :=
  match fs.find p with
  | .ok (.file _) => .ok true
  | .error .nameTooLong => .error (.badFileName .nameTooLong)
  | _ => .ok false

namespace Surface

/-- A diagnostic about a file as a whole. -/
def fileProblem (name message : String) : Failure :=
  .single { message, phase := some .parser, span := { file := some name } }

/-- The text of a file, in UTF-8. -/
def readSource (fs : Files) (name : String) : Except Failure String :=
  match fs.read (.ofString name) with
  | .error .zeroInName => .error (.badFileName .zeroInName)
  | .error e => .error (fileProblem name ("can't read file: " ++ e.message))
  | .ok bytes =>
    match Text.Utf8.decode bytes with
    | .error e => .error (fileProblem name ("can't decode file as UTF-8: " ++ e.reason))
    | .ok cs => .ok (String.ofList (unifyLines cs))

/-- The module in a file. Its spans name the file as it is named here. -/
def parseFile (fs : Files) (tabWidth : Option Int) (name : String) : Except Failure Module := do
  let source ← readSource fs name
  match tabWidth with
  | some w => parseModule w (some name) source
  | none => throw (.missing .tabWidth)

end Surface

end TypeLens
