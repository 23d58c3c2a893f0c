import TypeLens.Text.Digit
import TypeLens.Text.NameTable

/-!
The names of the characters that do not fit in one byte. Ideographs and Hangul syllables have names
by rules, all others are in a table.
-/

namespace TypeLens.Text

/-- How far a table of names has been read. -/
structure NameCursor where
  /-- The last name, reversed. -/
  name : List Char := []
  /-- How many characters of it the next name takes over, while that is read. -/
  shared : Option Nat := none
  /-- The name that is looked for has been passed. -/
  found : Bool := false

namespace NameCursor

/-- Reads a character of a table; `target` is the reversed name that is looked for. -/
def read (target : List Char) (s : NameCursor) (c : Char) : NameCursor :=
  if c = '\n' then s
  else if 'a' ≤ c ∧ c ≤ 'z' then
    let digit := c.toNat - 'a'.toNat
    match s.shared with
    | none => { s with shared := some digit, found := s.found || s.name == target }
    | some n => { s with shared := some (n * 26 + digit) }
  else
    match s.shared with
    | none => { s with name := c :: s.name }
    | some n => { s with name := c :: s.name.drop (s.name.length - n), shared := none }

end NameCursor

/-- Whether a name in capitals is in a table. -/
def isTabled (table : String) (name : List Char) : Bool :=
  let s := table.toList.foldl (NameCursor.read name.reverse) {}
  s.found || s.name == name.reverse

/-- The first and the last codes of the blocks of ideographs. -/
def ideographs : List (Nat × Nat) := [
  (0x3400, 0x4dbf), (0x4e00, 0x9fff), (0x20000, 0x2a6df), (0x2a700, 0x2b738), (0x2b740, 0x2b81d),
  (0x2b820, 0x2cea1), (0x2ceb0, 0x2ebe0), (0x30000, 0x3134a)]

/-- Ideographs are named by their codes, in four or five digits and capitals. -/
def isIdeographCode (cs : List Char) : Bool :=
  (cs.length = 4 || cs.length = 5) && cs.all (fun c => c == c.toUpper) &&
    match cs.mapM hexValue? with
    | some ds =>
      let code := ds.foldl (fun n d => n * 16 + d) 0
      ideographs.any fun r => r.1 ≤ code && code ≤ r.2
    | none => false

/-- The sounds of the parts of a Hangul syllable. -/
def syllableSounds : List (List String) := [
  ["G", "GG", "N", "D", "DD", "R", "M", "B", "BB", "S", "SS", "", "J", "JJ", "C", "K", "T", "P",
    "H"],
  ["A", "AE", "YA", "YAE", "EO", "E", "YEO", "YE", "O", "WA", "WAE", "OE", "YO", "U", "WEO", "WE",
    "WI", "YU", "EU", "YI", "I"],
  ["", "G", "GG", "GS", "N", "NJ", "NH", "D", "L", "LG", "LM", "LB", "LS", "LT", "LP", "LH", "M",
    "B", "BS", "S", "SS", "NG", "J", "C", "K", "T", "P", "H"]]

/-- What follows the longest of some sounds that a text begins with. -/
def afterSound (sounds : List String) (cs : List Char) : Option (List Char) :=
  let rests := sounds.filterMap fun s => s.toList.isPrefixOf? cs
  rests.find? fun r => rests.all fun r' => r.length ≤ r'.length

def isSyllable (cs : List Char) : Bool :=
  syllableSounds.foldlM (fun cs sounds => afterSound sounds cs) cs == some []

/-- Whether some character beyond the first 256 has a name. The case of letters matters only in the
names that follow a rule. -/
def isWideName (name : List Char) : Bool :=
  match "CJK UNIFIED IDEOGRAPH-".toList.isPrefixOf? name,
    "HANGUL SYLLABLE ".toList.isPrefixOf? name with
  | some code, _ => isIdeographCode code
  | none, some sounds => isSyllable sounds
  | none, none =>
    let name := name.map Char.toUpper
    (name.head?.bind fun c => nameTables.lookup c).any (isTabled · name)

end TypeLens.Text
