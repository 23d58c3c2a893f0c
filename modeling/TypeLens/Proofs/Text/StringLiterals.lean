import Mathlib.Tactic.SplitIfs
import TypeLens.Proofs.Lex.Tabs
import TypeLens.Surface.Build
import TypeLens.Text.Utf8

/-!
String literals mean what they spell. Characters come back from their UTF-8 bytes, whatever bytes
follow: a first byte is read by its value, and every continuation byte by the bounds that it is
within. The escapes of a literal are read among such bytes, and what comes out is read as UTF-8
again: a backslash is never part of a longer character, so that each stretch of a literal gives the
bytes of the character that it stands for.
-/

namespace TypeLens.Text.Utf8

variable {bits low high more n : Nat} {b : UInt8} {bs : List UInt8} {c : Char}

theorem toNat_toUInt8 (h : n < 0x100) : n.toUInt8.toNat = n :=
  UInt8.toNat_ofNat_of_lt' h

-- Single bytes

theorem decode_of_ascii (h : b.toNat < 0x80) :
    decode (b :: bs) = (decode bs).map (Char.ofNat b.toNat :: ·) := by
  rw [decode, if_pos h]

theorem decode_of_lead (h : 0x80 ≤ b.toNat) (hl : lead? b = some ⟨bits, low, high, more⟩) :
    decode (b :: bs) = continued bits low high more bs := by
  rw [decode, if_neg (by omega), hl]

theorem continued_last (hlow : low ≤ b.toNat) (hhigh : b.toNat ≤ high) :
    continued bits low high 0 (b :: bs) =
      (decode bs).map (Char.ofNat (bits * 0x40 + (b.toNat - 0x80)) :: ·) := by
  rw [continued, if_pos ⟨hlow, hhigh⟩]

theorem continued_succ (hlow : low ≤ b.toNat) (hhigh : b.toNat ≤ high) :
    continued bits low high (more + 1) (b :: bs) =
      continued (bits * 0x40 + (b.toNat - 0x80)) 0x80 0xbf more bs := by
  rw [continued, if_pos ⟨hlow, hhigh⟩]

-- First bytes, by the number of bytes that they announce

theorem lead?_two (h : 0x80 ≤ n) (hn : n < 0x800) :
    lead? (0xc0 + n / 0x40).toUInt8 = some ⟨n / 0x40, 0x80, 0xbf, 0⟩ := by
  have hnat : (0xc0 + n / 0x40).toUInt8.toNat = 0xc0 + n / 0x40 := toNat_toUInt8 (by omega)
  simp only [lead?, hnat]
  rw [if_neg (by omega), if_pos (by omega), Nat.add_sub_cancel_left]

/-- The bounds leave out overlong forms and surrogates. -/
theorem lead?_three (h : 0x800 ≤ n) (hn : n < 0xd800 ∨ 0xdfff < n) (hn' : n < 0x10000) :
    ∃ low high, lead? (0xe0 + n / 0x1000).toUInt8 = some ⟨n / 0x1000, low, high, 1⟩ ∧
      low ≤ 0x80 + n / 0x40 % 0x40 ∧ 0x80 + n / 0x40 % 0x40 ≤ high := by
  have hnat : (0xe0 + n / 0x1000).toUInt8.toNat = 0xe0 + n / 0x1000 := toNat_toUInt8 (by omega)
  simp only [lead?, hnat]
  rw [if_neg (by omega), if_neg (by omega)]
  split_ifs with hfirst hsurrogate hlast
  · exact ⟨0xa0, 0xbf, by rw [show n / 0x1000 = 0 by omega], by omega, by omega⟩
  · exact ⟨0x80, 0x9f, by rw [show n / 0x1000 = 0xd by omega], by omega, by omega⟩
  · exact ⟨0x80, 0xbf, by rw [Nat.add_sub_cancel_left], by omega, by omega⟩
  all_goals omega

/-- The bounds leave out overlong forms and what is past the last character. -/
theorem lead?_four (h : 0x10000 ≤ n) (hn : n < 0x110000) :
    ∃ low high, lead? (0xf0 + n / 0x40000).toUInt8 = some ⟨n / 0x40000, low, high, 2⟩ ∧
      low ≤ 0x80 + n / 0x1000 % 0x40 ∧ 0x80 + n / 0x1000 % 0x40 ≤ high := by
  have hnat : (0xf0 + n / 0x40000).toUInt8.toNat = 0xf0 + n / 0x40000 := toNat_toUInt8 (by omega)
  simp only [lead?, hnat]
  rw [if_neg (by omega), if_neg (by omega), if_neg (by omega), if_neg (by omega),
    if_neg (by omega)]
  split_ifs with hfirst hlast
  · exact ⟨0x90, 0xbf, by rw [show n / 0x40000 = 0 by omega], by omega, by omega⟩
  · exact ⟨0x80, 0x8f, by rw [show n / 0x40000 = 4 by omega], by omega, by omega⟩
  · exact ⟨0x80, 0xbf, by rw [Nat.add_sub_cancel_left], by omega, by omega⟩
  all_goals omega

-- Characters

theorem toNat_tail (n : Nat) : (0x80 + n % 0x40).toUInt8.toNat = 0x80 + n % 0x40 :=
  toNat_toUInt8 (by omega)

theorem toNat_valid (c : Char) : c.toNat < 0xd800 ∨ 0xdfff < c.toNat ∧ c.toNat < 0x110000 :=
  c.valid

/-- A character is read off its bytes. -/
theorem decode_encodeChar_append (c : Char) (bs : List UInt8) :
    decode (encodeChar c ++ bs) = (decode bs).map (c :: ·) := by
  have hvalid := toNat_valid c
  have hc {n : Nat} (hn : n = c.toNat) : Char.ofNat n = c := hn ▸ Char.ofNat_toNat c
  simp only [encodeChar]
  split_ifs with hone htwo hthree
  · have hnat : c.toNat.toUInt8.toNat = c.toNat := toNat_toUInt8 (by omega)
    rw [List.singleton_append, decode_of_ascii (by omega), hc hnat]
  · have hlead := lead?_two (Nat.le_of_not_lt hone) htwo
    have hnat : (0xc0 + c.toNat / 0x40).toUInt8.toNat = 0xc0 + c.toNat / 0x40 :=
      toNat_toUInt8 (by omega)
    simp only [List.cons_append, List.nil_append]
    rw [decode_of_lead (by omega) hlead, continued_last, toNat_tail, hc (by omega)]
    all_goals
      rw [toNat_tail]
      omega
  · obtain ⟨low, high, hlead, hlow, hhigh⟩ :=
      lead?_three (Nat.le_of_not_lt htwo) (hvalid.imp_right And.left) hthree
    have hnat : (0xe0 + c.toNat / 0x1000).toUInt8.toNat = 0xe0 + c.toNat / 0x1000 :=
      toNat_toUInt8 (by omega)
    simp only [List.cons_append, List.nil_append]
    rw [decode_of_lead (by omega) hlead, continued_succ, continued_last, toNat_tail, toNat_tail,
      hc (by omega)]
    all_goals
      rw [toNat_tail]
      first | assumption | omega
  · obtain ⟨low, high, hlead, hlow, hhigh⟩ :=
      lead?_four (Nat.le_of_not_lt hthree) (by omega)
    have hnat : (0xf0 + c.toNat / 0x40000).toUInt8.toNat = 0xf0 + c.toNat / 0x40000 :=
      toNat_toUInt8 (by omega)
    simp only [List.cons_append, List.nil_append]
    rw [decode_of_lead (by omega) hlead, continued_succ, continued_succ, continued_last, toNat_tail,
      toNat_tail, toNat_tail, hc (by omega)]
    all_goals
      rw [toNat_tail]
      first | assumption | omega

theorem encode_cons (c : Char) (cs : List Char) : encode (c :: cs) = encodeChar c ++ encode cs :=
  List.flatMap_cons

theorem encode_append (cs cs' : List Char) : encode (cs ++ cs') = encode cs ++ encode cs' :=
  List.flatMap_append

/-- Text survives being written and read. -/
theorem decode_encode (cs : List Char) : decode (encode cs) = .ok cs := by
  induction cs with
  | nil => rw [encode, List.flatMap_nil, decode]
  | cons c cs ih =>
    rw [encode_cons, decode_encodeChar_append, ih]
    rfl

/-- The one byte of a character is ASCII, and of more than one byte none is. -/
theorem encodeChar_eq_or (c : Char) :
    (c.toNat < 0x80 ∧ encodeChar c = [c.toNat.toUInt8]) ∨ ∀ b ∈ encodeChar c, 0x80 ≤ b.toNat := by
  have hbyte {n : Nat} (hn : 0x80 ≤ n) (hn' : n < 0x100) : 0x80 ≤ n.toUInt8.toNat := by
    rwa [toNat_toUInt8 hn']
  have htail (n : Nat) : 0x80 ≤ (0x80 + n % 0x40).toUInt8.toNat :=
    hbyte (by omega) (by omega)
  have hvalid := toNat_valid c
  simp only [encodeChar]
  split_ifs with hone htwo hthree
  · exact .inl ⟨hone, rfl⟩
  all_goals
    refine .inr ?_
    simp only [List.forall_mem_cons]
  · exact ⟨hbyte (by omega) (by omega), htail _, List.forall_mem_nil _⟩
  · exact ⟨hbyte (by omega) (by omega), htail _, htail _, List.forall_mem_nil _⟩
  · exact ⟨hbyte (by omega) (by omega), htail _, htail _, htail _, List.forall_mem_nil _⟩

end TypeLens.Text.Utf8

namespace TypeLens.Text.Escape

open TypeLens.Lex (piece? stringBody?)

/-- The letters of escapes, and what these stand for. -/
def shortEscapes : List (Char × Char) :=
  [('\\', '\\'), ('"', '"'), ('\'', '\''), ('n', '\n'), ('t', '\t'), ('r', '\r')]

/-- A stretch of a literal that stands for one character. -/
inductive Part
  | plain (c : Char) (h : c ∉ ['\\', '"', '\n'])
  | escape (letter c : Char) (h : (letter, c) ∈ shortEscapes)

namespace Part

def text : Part → List Char
  | plain c _ => [c]
  | escape letter _ _ => ['\\', letter]

def value : Part → Char
  | plain c _ => c
  | escape _ c _ => c

end Part

variable {b : UInt8} {bs : List UInt8} {codes : List Nat} {c letter : Char}

-- Codes

/-- What bytes with escapes stand for, with all the steps that they may need. -/
def Reads (bs : List UInt8) (codes : List Nat) : Prop :=
  ∀ fuel, bs.length ≤ fuel → codesWithin fuel bs = some codes

theorem Reads.codes?_eq (h : Reads bs codes) : codes? bs = some codes :=
  h _ (Nat.le_refl _)

theorem Reads.nil : Reads [] [] := fun fuel _ => by
  cases fuel <;> rfl

theorem Reads.byte (hb : char b ≠ '\\') (h : Reads bs codes) :
    Reads (b :: bs) (b.toNat :: codes) := by
  intro fuel hfuel
  cases fuel with
  | zero => cases hfuel
  | succ fuel =>
    rw [codesWithin, if_neg hb, h fuel (Nat.le_of_succ_le_succ hfuel)]
    rfl

theorem Reads.bytes {more : List UInt8} (hmore : ∀ b ∈ more, char b ≠ '\\') (h : Reads bs codes) :
    Reads (more ++ bs) (more.map UInt8.toNat ++ codes) := by
  induction more with
  | nil => exact h
  | cons b more ih =>
    obtain ⟨hb, hmore⟩ := List.forall_mem_cons.1 hmore
    exact (ih hmore).byte hb

/-- An escape takes one step for its two bytes. -/
theorem Reads.escape {code : Nat} (hcode : simple? (char b) = some code) (h : Reads bs codes) :
    Reads (0x5c :: b :: bs) (code :: codes) := by
  intro fuel hfuel
  cases fuel with
  | zero => cases hfuel
  | succ fuel =>
    have hrest := h fuel (Nat.le_of_succ_le (Nat.le_of_succ_le_succ hfuel))
    rw [codesWithin, if_pos (by decide), escape?, hcode, Option.bind_some, hrest]
    rfl

/-- Bytes of longer characters are no backslashes. -/
theorem char_ne_backslash (hc : c ≠ '\\') : ∀ b ∈ Utf8.encodeChar c, char b ≠ '\\' := by
  intro b hb heq
  have hvalid : b.toNat.isValidChar := .inl (b.toNat_lt.trans (by decide))
  have hnat : (char b).toNat = b.toNat := by
    rw [char, Char.ofNat, dif_pos hvalid]
    rfl
  rw [heq] at hnat
  rcases Utf8.encodeChar_eq_or c with ⟨hascii, hone⟩ | hlong
  · rw [hone, List.mem_singleton] at hb
    rw [hb, Utf8.toNat_toUInt8 (by omega)] at hnat
    exact hc (Char.toNat_inj.1 hnat.symm)
  · exact absurd (hlong b hb) (by rw [← hnat]; decide)

/-- Escapes are two bytes that stand for one. -/
theorem encode_of_mem_shortEscapes : ∀ x ∈ shortEscapes,
    Utf8.encode ['\\', x.1] = [0x5c, x.1.toNat.toUInt8] ∧
      simple? (char x.1.toNat.toUInt8) = some x.2.toNat ∧
      (Utf8.encodeChar x.2).map UInt8.toNat = [x.2.toNat] := by
  decide

theorem Reads.part (p : Part) (h : Reads bs codes) :
    Reads (Utf8.encode p.text ++ bs) ((Utf8.encodeChar p.value).map UInt8.toNat ++ codes) := by
  cases p with
  | plain c hc =>
    have hbackslash : c ≠ '\\' := fun heq => hc (heq ▸ List.mem_cons_self)
    rw [Part.text, Utf8.encode_cons, Utf8.encode, List.flatMap_nil, List.append_nil]
    exact h.bytes (char_ne_backslash hbackslash)
  | escape letter c hc =>
    obtain ⟨htext, hcode, hvalue⟩ := encode_of_mem_shortEscapes _ hc
    rw [Part.text, Part.value, htext, hvalue]
    exact h.escape hcode

theorem reads_parts (parts : List Part) :
    Reads (Utf8.encode (parts.flatMap Part.text))
      ((Utf8.encode (parts.map Part.value)).map UInt8.toNat) := by
  induction parts with
  | nil => exact .nil
  | cons p parts ih =>
    rw [List.flatMap_cons, Utf8.encode_append, List.map_cons, Utf8.encode_cons, List.map_append]
    exact ih.part p

-- Values

theorem bytes?_map_toNat (bs : List UInt8) : bytes? (bs.map UInt8.toNat) = some bs := by
  induction bs with
  | nil => rfl
  | cons b bs ih =>
    have hb : b.toNat ≤ 0xff := Nat.le_of_lt_succ b.toNat_lt
    rw [bytes?, List.map_cons, List.mapM_cons, if_pos hb, Nat.toUInt8_eq,
      UInt8.ofNat_toNat]
    rw [bytes?] at ih
    rw [ih]
    rfl

theorem decode_parts (parts : List Part) :
    decode (parts.flatMap Part.text) = .ok (parts.map Part.value) := by
  simp only [decode, (reads_parts parts).codes?_eq, bytes?_map_toNat, Utf8.decode_encode]
  rfl

-- Literals

theorem stringBody?_parts (parts : List Part) (r : List Char) :
    stringBody? (parts.flatMap Part.text ++ '"' :: r) =
      some (parts.flatMap Part.text ++ ['"'], r) := by
  induction parts with
  | nil => rw [List.flatMap_nil, List.nil_append, stringBody?, List.nil_append]
  | cons p parts ih =>
    rw [List.flatMap_cons, List.append_assoc]
    cases p with
    | plain c hc =>
      simp only [List.mem_cons, List.not_mem_nil, or_false, not_or] at hc
      rw [Part.text, List.singleton_append, Lex.stringBody?_cons hc.2.1 hc.2.2 hc.1, ih]
      rfl
    | escape letter c hc =>
      have hline : letter ≠ '\n' := (by decide : ∀ x ∈ shortEscapes, x.1 ≠ '\n') _ hc
      rw [Part.text, List.cons_append, List.singleton_append, stringBody?, if_neg hline, ih]
      rfl

/-- A literal made of plain characters and escapes is one token, and its value is made of the
characters and of what the escapes stand for. -/
theorem literal_decodes (parts : List Part) :
    (∀ r, piece? ('"' :: parts.flatMap Part.text ++ '"' :: r) =
        some (⟨.token .string, '"' :: parts.flatMap Part.text ++ ['"']⟩, r)) ∧
      Surface.buildString (String.ofList ('"' :: parts.flatMap Part.text ++ ['"'])) =
        .ok (String.ofList (parts.map Part.value)) := by
  refine ⟨fun r => ?_, ?_⟩
  · rw [List.cons_append, Lex.piece?_cons (by simp) (by simp), if_neg (by decide), if_pos rfl,
      stringBody?_parts]
    rfl
  · rw [Surface.buildString, String.toList_ofList, List.cons_append, List.drop_succ_cons,
      List.drop_zero, List.dropLast_concat, decode_parts]

end TypeLens.Text.Escape
