import TypeLens.CommandLine.Arguments
import TypeLens.Session.Query
import TypeLens.Text.Json

/-!
What a run of the program writes, from the files that are there and the words of its command line.
-/

namespace TypeLens.CommandLine

inductive Answer
  | description (text : String)
  | types (ts : List (Extent × String))
deriving DecidableEq, Repr

namespace Answer

def bounds (e : Extent) : List String := [e.line, e.column, e.endLine, e.endColumn].map toString

/-- Types stand on a line each, after the place that they belong to. -/
def lines : Answer → String
  | .description text => text ++ "\n"
  | .types ts =>
    String.join (ts.map fun t => " ".intercalate (bounds t.1 ++ [Text.jsonString t.2]) ++ "\n")

def jsonType (t : Extent × String) : String :=
  "\x7b\"span\": [" ++ ", ".intercalate (bounds t.1) ++ "], \"type\": " ++ Text.jsonString t.2 ++
    "\x7d"

def json : Answer → String
  | .description text => Text.jsonString text
  | .types ts => "[" ++ ", ".intercalate (ts.map jsonType) ++ "]"

end Answer

/-- The line that tells in JSON how a run ended. -/
def jsonLine (exitCode : Nat) (key value : String) : String :=
  "\x7b\"exit_code\": " ++ toString exitCode ++ ", " ++ Text.jsonString key ++ ": " ++ value ++
    "\x7d\n"

/-- How a run ends. -/
inductive Outcome
  | usage (u : Usage)
  | done (exitCode : Nat) (output errors : String)
  /-- Nothing is written that says what is wrong. -/
  | failed (f : Failure)
deriving DecidableEq, Repr

def printed (ds : List Diagnostic) : String :=
  if ds.isEmpty then "" else Diagnostic.renderAll ds ++ "\n"

def Outcome.ofAnswer (json : Bool) : Except QueryError Answer → Outcome
  | .ok a => .done 0 (if json then jsonLine 0 "result" a.json else a.lines) ""
  | .error (.other f) => .failed f
  | .error e =>
    if json then .done 1 (jsonLine 1 "error" (Text.jsonString e.message)) (printed e.printed)
    else .done 1 "" (printed e.printed ++ e.message ++ "\n")

def Arguments.answer (fs : Files) (a : Arguments) : Except QueryError Answer :=
  let s : Session := { config := a.config }
  match a.command with
  | .info file identifier => ((Session.info fs file.render identifier).run s).1.map .description
  | .type file p => ((Session.types fs file.render p).run s).1.map .types

def run (fs : Files) (args : List String) : Outcome :=
  match parse args with
  | .error u => .usage u
  | .ok a => .ofAnswer a.json (a.answer fs)

end TypeLens.CommandLine
