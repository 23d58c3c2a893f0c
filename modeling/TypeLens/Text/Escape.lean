import TypeLens.Text.CharacterName
import TypeLens.Text.Digit
import TypeLens.Text.Utf8
import TypeLens.Text.WideName

/-!
The value of a string literal. Escapes are read in the bytes of its text; the codes that come out
must be bytes again, and these must be UTF-8.
-/

namespace TypeLens.Text

inductive EscapeError
  /-- An escape that is cut short, or names no character. -/
  | malformed
  /-- An escape beyond the range of a byte. -/
  | outOfRange
  /-- The bytes are not UTF-8. -/
  | notUtf8 (e : Utf8Error)
deriving DecidableEq, Repr

namespace Escape

/-- Escapes of one character. -/
def simple? : Char → Option Nat
  | '\\' => some 0x5c
  | '\'' => some 0x27
  | '"' => some 0x22
  | 'a' => some 0x07
  | 'b' => some 0x08
  | 'f' => some 0x0c
  | 'n' => some 0x0a
  | 'r' => some 0x0d
  | 't' => some 0x09
  | 'v' => some 0x0b
  | _ => none

def char (b : UInt8) : Char := Char.ofNat b.toNat

/-- The value of exactly `n` hexadecimal digits and what follows. -/
def hex? : Nat → Nat → List UInt8 → Option (Nat × List UInt8)
  | 0, acc, bs => some (acc, bs)
  | n + 1, acc, b :: bs => (hexValue? (char b)).bind fun d => hex? n (acc * 16 + d) bs
  | _ + 1, _, [] => none

/-- The value of up to `n` octal digits after those that make `acc`, and what follows. -/
def octal : Nat → Nat → List UInt8 → Nat × List UInt8
  | n + 1, acc, b :: bs =>
    if 0x30 ≤ b.toNat ∧ b.toNat < 0x38 then octal n (acc * 8 + (b.toNat - 0x30)) bs
    else (acc, b :: bs)
  | _, acc, bs => (acc, bs)

/-- A code that is not a byte's; codes beyond a byte need not be told apart. -/
def beyondByte : Nat := 0x100

/-- The code of a named character. -/
def named? (name : List Char) : Option Nat :=
  (namedCharacter? name).or (if isWideName name then some beyondByte else none)

/-- A name in braces, and what follows. -/
def name? : List UInt8 → Option (Nat × List UInt8)
  | b :: bs =>
    if char b = '\x7b' then
      match bs.dropWhile (char · ≠ '\x7d') with
      | _ :: rest =>
        (named? ((bs.takeWhile (char · ≠ '\x7d')).map char)).map fun c => (c, rest)
      | [] => none
    else none
  | [] => none

/-- The codes after a backslash, and what follows. -/
def escape? : List UInt8 → Option (List Nat × List UInt8)
  | [] => none
  | b :: bs =>
    match simple? (char b) with
    | some c => some ([c], bs)
    | none =>
      if 0x30 ≤ b.toNat ∧ b.toNat < 0x38 then
        let r := octal 2 (b.toNat - 0x30) bs
        some ([r.1], r.2)
      else
        match char b with
        | 'x' => (hex? 2 0 bs).map (·.map ([·]) id)
        | 'u' => (hex? 4 0 bs).map (·.map ([·]) id)
        | 'U' => (hex? 8 0 bs).bind fun r => if r.1 ≤ 0x10ffff then some ([r.1], r.2) else none
        | 'N' => (name? bs).map (·.map ([·]) id)
        | _ => some ([0x5c, b.toNat], bs)

/-- The codes that bytes with escapes stand for, at most `fuel` of the steps. -/
def codesWithin : Nat → List UInt8 → Option (List Nat)
  | _, [] => some []
  | 0, _ => none
  | fuel + 1, b :: bs =>
    if char b = '\\' then
      (escape? bs).bind fun r => (codesWithin fuel r.2).map (r.1 ++ ·)
    else (codesWithin fuel bs).map (b.toNat :: ·)

def codes? (bs : List UInt8) : Option (List Nat) := codesWithin bs.length bs

/-- Codes as bytes, if they are in range. -/
def bytes? (codes : List Nat) : Option (List UInt8) :=
  codes.mapM fun c => if c ≤ 0xff then some c.toUInt8 else none

/-- The value of the text between a literal's quotes. -/
def decode (text : List Char) : Except EscapeError (List Char) :=
  match codes? (Utf8.encode text) with
  | none => .error .malformed
  | some codes =>
    match bytes? codes with
    | none => .error .outOfRange
    | some bs => (Utf8.decode bs).mapError .notUtf8

end Escape

end TypeLens.Text
