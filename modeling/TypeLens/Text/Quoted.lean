import TypeLens.Text.Digit
import TypeLens.Text.Printable

namespace TypeLens.Text

/-- A character that is not printable, by its code. -/
def escapedCode (n : Nat) : List Char :=
  if n ≤ 0xff then '\\' :: 'x' :: hexDigits 2 n
  else if n ≤ 0xffff then '\\' :: 'u' :: hexDigits 4 n
  else '\\' :: 'U' :: hexDigits 8 n

/-- A character as it stands between quotes. -/
def quotedBody (c : Char) : List Char :=
  match c with
  | '\\' => ['\\', '\\']
  | '\t' => ['\\', 't']
  | '\n' => ['\\', 'n']
  | '\r' => ['\\', 'r']
  | _ => if isPrintable c then [c] else escapedCode c.toNat

/-- A character in single quotes; the single quote itself stands in double ones. -/
def quoted (c : Char) : String :=
  if c = '\'' then "\"'\"" else String.ofList ('\'' :: quotedBody c ++ ['\''])

end TypeLens.Text
