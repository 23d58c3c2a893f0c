import TypeLens.CommandLine.Word
import TypeLens.Session.Query
import TypeLens.Text.Integer

/-!
Reading a command line: settings, then a command with its operands.
-/

namespace TypeLens.CommandLine

/-- Why there is nothing to run. -/
inductive Usage
  | help
  | wrong
deriving DecidableEq, Repr

def Usage.exitCode : Usage → Nat
  | .help => 0
  | .wrong => 2

inductive Command
  | info (file : Path) (identifier : Option String)
  | type (file : Path) (p : PartialPoint)
deriving DecidableEq, Repr

structure Arguments where
  config : Config
  json : Bool
  command : Command
deriving Repr

def Command.file : Command → Path
  | .info p _ => p
  | .type p _ => p

/-- Two dashes stand for a value that is left out. -/
def given? (text : String) : Option String := if text = "--" then none else some text

/-- A number that can be left out, unless what is given is no number. -/
def number? : Option String → Option (Option Int)
  | none => some none
  | some t => (Text.readInt? t).map some

structure Settings where
  config : Config := {}
  json : Bool := false

namespace Settings

def set (s : Settings) : Setting → Except Usage Settings
  | .flag .help => .error .help
  | .flag .noPrelude => .ok { s with config.implicitPrelude := false }
  | .flag .json => .ok { s with json := true }
  | .value .importPath t =>
    .ok { s with config.importPaths := s.config.importPaths ++ [(given? t).map .ofString] }
  | .value .tabWidth t =>
    match number? (given? t) with
    | some n => .ok { s with config.tabWidth := n }
    | none => .error .wrong

end Settings

/-- The settings before a command, its name, and the words after it. -/
structure Opening where
  settings : Settings
  /-- Some option is not known. -/
  unknown : Bool
  command : String
  rest : List String

/-- The first operand is the command. A value that is not in the option's word is the next one. -/
def readOpening (os : Spellings) (s : Settings) (unknown : Bool) :
    List Word → Except Usage Opening
  | [] => .error .wrong
  | w :: ws =>
    match w.role with
    | .operand => .ok ⟨s, unknown, w.text, ws.map (·.text)⟩
    | .separator => .error .wrong
    | .unknown => readOpening os s true ws
    | .option short m value =>
      match readOption os short m value with
      | none => .error .wrong
      | some ⟨given, none⟩ => do readOpening os (← given.foldlM Settings.set s) unknown ws
      | some ⟨given, some k⟩ =>
        match ws with
        | ⟨t, .operand⟩ :: ws => do
          readOpening os (← (given ++ [Setting.value k t]).foldlM Settings.set s) unknown ws
        | _ => .error .wrong

inductive CommandName
  | info
  | type
deriving DecidableEq, Repr

namespace CommandName

def ofString? : String → Option CommandName
  | "info" => some .info
  | "type" => some .type
  | _ => none

/-- Whether a text can be the operand at a position; positions after the last are not checked. -/
def accepts : CommandName → Nat → Option String → Bool
  | .type, 1, t => (number? t).isSome
  | .type, 2, t => (number? t).isSome
  | _, _, _ => true

def command? : CommandName → List (Option String) → Option Command
  | .info, [some f, x] => some (.info (.ofString f) x)
  | .type, [some f, l, c] => do return .type (.ofString f) ⟨← number? l, ← number? c⟩
  | _, _ => none

end CommandName

/-- The operands of a command; all but the first can be left out. Help is its only option. -/
def readOperands (c : CommandName) (operands : List (Option String)) (unknown : Bool) :
    List Word → Except Usage (List (Option String))
  | [] => if unknown then .error .wrong else .ok operands
  | w :: ws =>
    match w.role with
    | .operand =>
      let t := if operands.isEmpty then some w.text else given? w.text
      if c.accepts operands.length t then readOperands c (operands ++ [t]) unknown ws
      else .error .wrong
    | .separator => readOperands c operands unknown ws
    | .unknown => readOperands c operands true ws
    | .option short m value =>
      .error (if (readOption helpSpellings short m value).isSome then .help else .wrong)

def orWrong {α : Type} : Option α → Except Usage α
  | some a => .ok a
  | none => .error .wrong

/-- The words after a command's name are read anew. -/
def parse (args : List String) : Except Usage Arguments := do
  let o ← readOpening allSpellings {} false (← orWrong (classify allSpellings args))
  let name ← orWrong (CommandName.ofString? o.command)
  let operands ← readOperands name [] o.unknown (← orWrong (classify helpSpellings o.rest))
  return ⟨o.settings.config, o.settings.json, ← orWrong (name.command? operands)⟩

end TypeLens.CommandLine
