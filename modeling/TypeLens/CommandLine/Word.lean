import TypeLens.Table
import TypeLens.Text.Digit

/-!
The words of a command line: operands, options, and the separator after which all words are
operands.
-/

namespace TypeLens.CommandLine

/-- An option without a value. -/
inductive Flag
  | help
  | noPrelude
  | json
deriving DecidableEq, Repr

/-- An option with a value. -/
inductive Key
  | importPath
  | tabWidth
deriving DecidableEq, Repr

inductive Meaning
  | flag (f : Flag)
  | key (k : Key)
deriving DecidableEq, Repr

/-- Options are spelled with one dash and a letter, or with two dashes and a word. -/
abbrev Spellings := Table String Meaning

def helpSpellings : Spellings := [("-h", .flag .help), ("--help", .flag .help)]

def allSpellings : Spellings := helpSpellings ++
  [("-i", .key .importPath), ("--import-path", .key .importPath),
   ("--no-implicit-prelude", .flag .noPrelude), ("--tab-width", .key .tabWidth),
   ("--json", .flag .json)]

inductive Role
  | operand
  /-- An option, spelled with one dash if `short`, and the value in the same word. -/
  | option (short : Bool) (m : Meaning) (value : Option (List Char))
  | unknown
  | separator
deriving DecidableEq, Repr

structure Word where
  text : String
  role : Role
deriving DecidableEq, Repr

/-- The text before the first equals sign, and the text after it. -/
def splitValue (cs : List Char) : List Char × Option (List Char) :=
  match cs.dropWhile (· != '=') with
  | [] => (cs, none)
  | _ :: v => (cs.takeWhile (· != '='), some v)

def isDigit (c : Char) : Bool := (Text.digitValue? c).isSome

def areDigits (cs : List Char) : Bool := !cs.isEmpty && cs.all isDigit

/-- A minus sign and digits, with at most one point, which digits follow; a line feed can end
them. -/
def isNegativeNumber : List Char → Bool
  | '-' :: cs =>
    let cs := if cs.getLast? = some '\n' then cs.dropLast else cs
    areDigits cs ||
      match cs.dropWhile isDigit with
      | '.' :: ds => areDigits ds
      | _ => false
  | _ => false

def isShort (cs : List Char) : Bool := cs[1]? != some '-'

/-- An option that is spelled out, alone or before an equals sign. -/
def exactOption (os : Spellings) (cs : List Char) : Option Role :=
  match os.get? (String.ofList cs) with
  | some m => some (.option (isShort cs) m none)
  | none =>
    let (name, value) := splitValue cs
    (os.get? (String.ofList name)).map fun m => .option (isShort cs) m value

/-- Options that begin like a long word, or whose letter begins a short one. -/
def similarOptions (os : Spellings) (cs : List Char) : List Role :=
  if isShort cs then
    (os.filter fun o => o.1.toList = cs.take 2).map fun o => .option true o.2 (some (cs.drop 2))
  else
    let (name, value) := splitValue cs
    (os.filter fun o => name.isPrefixOf o.1.toList).map fun o => .option false o.2 value

/-- The role of a word before the separator, unless several options begin like it. -/
def role? (os : Spellings) (cs : List Char) : Option Role :=
  if cs.head? ≠ some '-' ∨ cs = ['-'] then some .operand
  else
    match exactOption os cs with
    | some r => some r
    | none =>
      match similarOptions os cs with
      | [r] => some r
      | [] => some (if isNegativeNumber cs || cs.contains ' ' then .operand else .unknown)
      | _ => none

def classify (os : Spellings) : List String → Option (List Word)
  | [] => some []
  | t :: ts =>
    if t = "--" then some (⟨t, .separator⟩ :: ts.map (⟨·, .operand⟩))
    else do return ⟨t, ← role? os t.toList⟩ :: (← classify os ts)

/-- What is set by an option, with its value if it takes one. -/
inductive Setting
  | flag (f : Flag)
  | value (k : Key) (text : String)
deriving DecidableEq, Repr

/-- What one word sets, and the option whose value is the next word. -/
structure Request where
  settings : List Setting
  pending : Option Key
deriving DecidableEq, Repr

/-- Flags after one dash, up to an option that takes what remains as its value. -/
def readLetters (os : Spellings) : Meaning → List Char → Option Request
  | .flag f, [] => some ⟨[.flag f], none⟩
  | .key k, [] => some ⟨[], some k⟩
  | .key k, cs => some ⟨[.value k (String.ofList cs)], none⟩
  | .flag f, c :: cs => do
    let r ← readLetters os (← os.get? (String.ofList ['-', c])) cs
    return ⟨.flag f :: r.settings, r.pending⟩

/-- A flag takes no value, but letters of more options after one dash. -/
def readOption (os : Spellings) (short : Bool) (m : Meaning) : Option (List Char) → Option Request
  | none => readLetters os m []
  | some v =>
    match m with
    | .key k => some ⟨[.value k (String.ofList v)], none⟩
    | .flag _ => if short && !v.isEmpty then readLetters os m v else none

end TypeLens.CommandLine
