import TypeLens.Text.Blank
import TypeLens.Text.Digit

/-!
Integers as a person types them: blanks around them, a sign, and digits with underscores between
them.
-/

namespace TypeLens.Text

/-- The four ASCII separators are not blank around a number. -/
def isNumberBlank (c : Char) : Bool := isBlank c && !(0x1c ≤ c.toNat && c.toNat ≤ 0x1f)

/-- At least one digit; two digits may have one underscore between them. -/
def groupedDigits : List Char → Option (List Nat)
  | [] => none
  | [c] => (digitValue? c).map ([·])
  | c :: '_' :: cs => do return (← digitValue? c) :: (← groupedDigits cs)
  | c :: cs => do return (← digitValue? c) :: (← groupedDigits cs)

def ofDigits (ds : List Nat) : Nat := ds.foldl (fun n d => 10 * n + d) 0

def readNat? (cs : List Char) : Option Nat := do
  let ds ← groupedDigits cs
  if ds.length ≤ maxDigits then some (ofDigits ds) else none

def readInt? (s : String) : Option Int :=
  match strip isNumberBlank s.toList with
  | '-' :: cs => (readNat? cs).map fun n => -n
  | '+' :: cs => (readNat? cs).map fun n => n
  | cs => (readNat? cs).map fun n => n

end TypeLens.Text
