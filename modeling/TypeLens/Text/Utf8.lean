/-!
UTF-8: a first byte says how many continuation bytes follow and bounds the first of them, so that
there are no overlong forms, no surrogates and nothing past U+10FFFF.
-/

namespace TypeLens.Text

inductive Utf8Error
  | invalidStart
  | invalidContinuation
  | unexpectedEnd
deriving DecidableEq, Repr

def Utf8Error.reason : Utf8Error → String
  | .invalidStart => "invalid start byte"
  | .invalidContinuation => "invalid continuation byte"
  | .unexpectedEnd => "unexpected end of data"

namespace Utf8

def encodeChar (c : Char) : List UInt8 :=
  let n := c.toNat
  if n < 0x80 then [n.toUInt8]
  else if n < 0x800 then [(0xc0 + n / 0x40).toUInt8, (0x80 + n % 0x40).toUInt8]
  else if n < 0x10000 then
    [(0xe0 + n / 0x1000).toUInt8, (0x80 + n / 0x40 % 0x40).toUInt8, (0x80 + n % 0x40).toUInt8]
  else
    [(0xf0 + n / 0x40000).toUInt8, (0x80 + n / 0x1000 % 0x40).toUInt8,
      (0x80 + n / 0x40 % 0x40).toUInt8, (0x80 + n % 0x40).toUInt8]

def encode (cs : List Char) : List UInt8 := cs.flatMap encodeChar

/-- The bits of a first byte, the bounds of the next byte and the number of bytes after that. -/
structure Lead where
  bits : Nat
  low : Nat
  high : Nat
  more : Nat

def lead? (b : UInt8) : Option Lead :=
  let n := b.toNat
  if n < 0xc2 then none
  else if n < 0xe0 then some ⟨n - 0xc0, 0x80, 0xbf, 0⟩
  else if n = 0xe0 then some ⟨0, 0xa0, 0xbf, 1⟩
  else if n = 0xed then some ⟨0xd, 0x80, 0x9f, 1⟩
  else if n < 0xf0 then some ⟨n - 0xe0, 0x80, 0xbf, 1⟩
  else if n = 0xf0 then some ⟨0, 0x90, 0xbf, 2⟩
  else if n = 0xf4 then some ⟨4, 0x80, 0x8f, 2⟩
  else if n < 0xf4 then some ⟨n - 0xf0, 0x80, 0xbf, 2⟩
  else none

mutual

def decode : List UInt8 → Except Utf8Error (List Char)
  | [] => .ok []
  | b :: bs =>
    if b.toNat < 0x80 then (decode bs).map (Char.ofNat b.toNat :: ·)
    else match lead? b with
      | some l => continued l.bits l.low l.high l.more bs
      | none => .error .invalidStart

/-- Goes on with a character of which `bits` are known. -/
def continued (bits low high more : Nat) : List UInt8 → Except Utf8Error (List Char)
  | [] => .error .unexpectedEnd
  | b :: bs =>
    if low ≤ b.toNat ∧ b.toNat ≤ high then
      let bits := bits * 0x40 + (b.toNat - 0x80)
      match more with
      | 0 => (decode bs).map (Char.ofNat bits :: ·)
      | more + 1 => continued bits 0x80 0xbf more bs
    else .error .invalidContinuation

end

end Utf8

end TypeLens.Text
