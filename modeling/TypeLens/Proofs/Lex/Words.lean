import TypeLens.Proofs.Grammar.Positions
import TypeLens.Proofs.Lex.Pieces

/-!
Texts on one line and the tokens that they spell. What a text spells does not depend on where it
stands, as long as no word goes on behind it.
-/

namespace TypeLens

open Concrete

/-- A token of which only kind and text count. -/
def Concrete.Tok.bare (k : Terminal) (text : String) : Tok k := ⟨text, ⟨.first, .first⟩⟩

namespace Lex

def isConid (s : String) : Bool :=
  match s.toList with
  | c :: word => isUpper c && word.all isWordChar
  | [] => false

/-- A variable or a word of the language. -/
def isWord (s : String) : Bool :=
  match s.toList with
  | c :: word => (isLower c || c == '_') && word.all isWordChar
  | [] => false

def isVarid (s : String) : Bool := isWord s && (keyword? s).isNone

/-- The token that a piece is, wherever it stands. -/
def Piece.token? (p : Piece) : Option Token :=
  match p.kind with
  | .token k => some (Tok.bare k (String.ofList p.text)).token
  | _ => none

theorem relocate_tokensFrom (pos : Position) (ps : List Piece) :
    (tokensFrom pos ps).map (Token.relocate fun _ => .first) = ps.filterMap Piece.token? := by
  induction ps generalizing pos with
  | nil => rfl
  | cons p ps ih =>
    obtain ⟨kind, text⟩ := p
    cases kind with
    | token k => exact congrArg (_ :: ·) (ih _)
    | blank | comment => exact ih _

-- Characters

variable {c : Char} {r : List Char} {s : String}

theorem exists_cons_of_isConid (h : isConid s = true) :
    ∃ c word, s.toList = c :: word ∧ isUpper c = true ∧ ∀ d ∈ word, isWordChar d = true := by
  unfold isConid at h
  split at h
  next c word hcons =>
    rw [Bool.and_eq_true, List.all_eq_true] at h
    exact ⟨c, word, hcons, h.1, h.2⟩
  · cases h

theorem exists_cons_of_isWord (h : isWord s = true) :
    ∃ c word, s.toList = c :: word ∧ (isLower c = true ∨ c = '_') ∧
      ∀ d ∈ word, isWordChar d = true := by
  unfold isWord at h
  split at h
  next c word hcons =>
    rw [Bool.and_eq_true, List.all_eq_true, Bool.or_eq_true, beq_iff_eq] at h
    exact ⟨c, word, hcons, h.1, h.2⟩
  · cases h

theorem isWordChar_of_isConid (hs : isConid s = true) (hc : c ∈ s.toList) :
    isWordChar c = true := by
  obtain ⟨d, word, hcons, hupper, hword⟩ := exists_cons_of_isConid hs
  rcases List.mem_cons.1 (hcons ▸ hc) with rfl | hc
  · simp [isWordChar, hupper]
  · exact hword c hc

theorem isWordChar_of_isWord (hs : isWord s = true) (hc : c ∈ s.toList) : isWordChar c = true := by
  obtain ⟨d, word, hcons, hlower, hword⟩ := exists_cons_of_isWord hs
  rcases List.mem_cons.1 (hcons ▸ hc) with rfl | hc
  · rcases hlower with hd | rfl <;> simp [isWordChar, *]
  · exact hword c hc

theorem isSpace_of_isUpper (h : isUpper c = true) : isSpace c = false := by
  simp only [isUpper, Bool.and_eq_true, decide_eq_true_eq] at h
  simp only [isSpace, Bool.or_eq_false_iff, beq_eq_false_iff_ne]
  refine ⟨⟨?_, ?_⟩, ?_⟩ <;> rintro rfl <;> exact absurd h.1 (by decide)

theorem isSpace_of_isLower (h : isLower c = true) : isSpace c = false := by
  simp only [isLower, Bool.and_eq_true, decide_eq_true_eq] at h
  simp only [isSpace, Bool.or_eq_false_iff, beq_eq_false_iff_ne]
  refine ⟨⟨?_, ?_⟩, ?_⟩ <;> rintro rfl <;> exact absurd h.1 (by decide)

theorem isUpper_of_isLower (h : isLower c = true) : isUpper c = false := by
  simp only [isLower, Bool.and_eq_true, decide_eq_true_eq] at h
  simp only [isUpper, Bool.and_eq_false_iff, decide_eq_false_iff_not]
  refine .inr fun hz => ?_
  have h₁ : 'a'.toNat ≤ c.toNat := h.1
  have h₂ : c.toNat ≤ 'Z'.toNat := hz
  exact absurd (h₁.trans h₂) (by decide)

/-- Operator characters are few enough to look at each of them. -/
theorem of_isOperatorChar {p : Char → Bool} (hp : "!#$%&*+./<=>?@\\^|~:-".toList.all p = true)
    (h : isOperatorChar c = true) : p c = true :=
  List.all_eq_true.1 hp c (List.contains_iff_mem.1 h)

theorem isUpper_of_isOperatorChar (h : isOperatorChar c = true) : isUpper c = false := by
  simpa using of_isOperatorChar (p := fun d => !isUpper d) (by decide) h

theorem class?_of_isOperatorChar (h : isOperatorChar c = true) :
    class? c = some (isOperatorChar, wordKind .operator) := by
  have hall := of_isOperatorChar
    (p := fun d => !isSpace d && !isLower d && d != '_' && !isDigit d) (by decide) h
  have hupper := isUpper_of_isOperatorChar h
  simp only [Bool.and_eq_true, Bool.not_eq_true', bne_iff_ne] at hall
  simp [class?, hall, hupper, h]

-- Pieces

theorem isPiece_blank (hc : isSpace c = false) : IsPiece ⟨.blank, [' ']⟩ (c :: r) := by
  have hblank : class? ' ' = some (isSpace, fun _ => .blank) := rfl
  exact .run hblank (fun _ h => absurd h List.not_mem_nil) (fun d hd => by cases hd; exact hc)
    (by decide)

theorem isPiece_conid {s : String} (hs : isConid s = true)
    (hr : ∀ d ∈ r.head?, isWordChar d = false) : IsPiece ⟨.token .conid, s.toList⟩ r := by
  obtain ⟨c, word, hcons, hupper, hword⟩ := exists_cons_of_isConid hs
  have hclass : class? c = some (isWordChar, fun _ => .token .conid) := by
    simp [class?, hupper, isSpace_of_isUpper hupper]
  rw [hcons]
  refine .run hclass hword hr ?_
  rintro h
  obtain ⟨rfl, -⟩ := List.cons_prefix_cons.mp h
  exact absurd hupper (by decide)

theorem isPiece_word {s : String} (hs : isWord s = true)
    (hr : ∀ d ∈ r.head?, isWordChar d = false) : IsPiece ⟨wordKind .varid s.toList, s.toList⟩ r := by
  obtain ⟨c, word, hcons, hlower, hword⟩ := exists_cons_of_isWord hs
  have hclass : class? c = some (isWordChar, wordKind .varid) := by
    rcases hlower with h | rfl
    · simp [class?, h, isSpace_of_isLower h, isUpper_of_isLower h]
    · rfl
  rw [hcons]
  refine .run hclass hword hr ?_
  rintro h
  obtain ⟨rfl, -⟩ := List.cons_prefix_cons.mp h
  exact absurd hlower (by decide)

theorem isPiece_varid {s : String} (hs : isVarid s = true)
    (hr : ∀ d ∈ r.head?, isWordChar d = false) : IsPiece ⟨.token .varid, s.toList⟩ r := by
  rw [isVarid, Bool.and_eq_true, Option.isNone_iff_eq_none] at hs
  have hkind : wordKind .varid s.toList = .token .varid := by
    rw [wordKind, String.ofList_toList, hs.2]
    rfl
  rw [← hkind]
  exact isPiece_word hs.1 hr

/-- An operator that a blank follows. -/
theorem isPiece_operator {word : List Char} {k : Terminal}
    (hc : class? c = some (isOperatorChar, wordKind .operator))
    (hword : word.all isOperatorChar = true) (hcomment : ¬ ['-', '-'] <+: c :: word)
    (hk : wordKind .operator (c :: word) = .token k) :
    IsPiece ⟨.token k, c :: word⟩ (' ' :: r) := by
  rw [← hk]
  exact .run hc (List.all_eq_true.mp hword) (fun d hd => by cases hd; rfl) hcomment

theorem isPiece_module : IsPiece ⟨.token .kwModule, "module".toList⟩ (' ' :: r) := by
  have hkind : wordKind .varid "module".toList = .token .kwModule := by decide
  rw [← hkind]
  exact isPiece_word (by decide) fun d hd => by cases hd; decide

/-- A text that begins with a visible character. -/
def Visible (text : List Char) : Prop := ∃ c rest, text = c :: rest ∧ isSpace c = false

theorem Visible.append {text : List Char} (h : Visible text) (more : List Char) :
    Visible (text ++ more) := by
  obtain ⟨c, rest, rfl, hspace⟩ := h
  exact ⟨c, rest ++ more, rfl, hspace⟩

theorem visible_conid {s : String} (hs : isConid s = true) : Visible s.toList := by
  obtain ⟨c, word, hcons, hupper, -⟩ := exists_cons_of_isConid hs
  exact ⟨c, word, hcons, isSpace_of_isUpper hupper⟩

theorem visible_word {s : String} (hs : isWord s = true) : Visible s.toList := by
  obtain ⟨c, word, hcons, hlower, -⟩ := exists_cons_of_isWord hs
  refine ⟨c, word, hcons, ?_⟩
  rcases hlower with h | rfl
  · exact isSpace_of_isLower h
  · rfl

-- Texts

/-- Before `r` the text begins with pieces that are the tokens `ts`. -/
def Begins (text : List Char) (ts : List Token) (r : List Char) : Prop :=
  ∃ ps : List Piece, pieces (text ++ r) = (ps ++ (pieces r).1, (pieces r).2) ∧
    ps.filterMap Piece.token? = ts

namespace Begins

variable {text text' : List Char} {ts ts' : List Token}

theorem nil : Begins [] [] r := ⟨[], rfl, rfl⟩

theorem piece {p : Piece} (h : IsPiece p r) : Begins p.text p.token?.toList r :=
  ⟨[p], by rw [pieces_append h]; rfl, by cases hp : p.token? <;> simp [hp]⟩

theorem append (h : Begins text ts (text' ++ r)) (h' : Begins text' ts' r) :
    Begins (text ++ text') (ts ++ ts') r := by
  obtain ⟨ps, hps, hts⟩ := h
  obtain ⟨qs, hqs, hts'⟩ := h'
  refine ⟨ps ++ qs, ?_, by rw [List.filterMap_append, hts, hts']⟩
  rw [List.append_assoc, hps, hqs, List.append_assoc]

end Begins

/-- What layout passes on as it is. -/
def Inline (ts : List Token) : Prop := ∀ t ∈ ts, t.kind ≠ .newline ∧ t.kind ≠ .kwWhere

namespace Inline

theorem nil : Inline [] := fun _ ht => absurd ht List.not_mem_nil

theorem append {ts us : List Token} (h : Inline ts) (h' : Inline us) : Inline (ts ++ us) :=
  fun t ht => (List.mem_append.mp ht).elim (h t) (h' t)

theorem singleton {k : Terminal} (text : String) (hk : k ≠ .newline ∧ k ≠ .kwWhere) :
    Inline [(Tok.bare k text).token] := fun t ht => by
  obtain rfl := List.mem_singleton.mp ht
  exact hk

end Inline

/-- A text that is read as the tokens `ts` where no word goes on behind it. -/
structure Spells (text : String) (ts : List Token) : Prop where
  visible : Visible text.toList
  begins : ∀ r : List Char, (∀ c ∈ r.head?, isWordChar c = false) → Begins text.toList ts r
  inline : Inline ts

/-- A text that is read as the tokens `ts` behind a word and before something visible. -/
structure Separates (text : String) (ts : List Token) : Prop where
  stops : ∃ c rest, text.toList = c :: rest ∧ isWordChar c = false
  begins : ∀ r : List Char, Visible r → Begins text.toList ts r
  inline : Inline ts

namespace Separates

theorem blank : Separates " " [] where
  stops := ⟨' ', [], rfl, rfl⟩
  begins := by
    rintro _ ⟨c, rest, rfl, hc⟩
    exact .piece (isPiece_blank hc)
  inline := .nil

theorem comma : Separates ", " [(Tok.bare .comma ",").token] where
  stops := ⟨',', [' '], rfl, rfl⟩
  begins := by
    rintro _ ⟨c, rest, rfl, hc⟩
    have hcomma : IsPiece ⟨.token .comma, [',']⟩ ([' '] ++ c :: rest) := .bracket rfl
    exact (Begins.piece hcomma).append (.piece (isPiece_blank hc))
  inline := .singleton "," ⟨nofun, nofun⟩

/-- An operator with a blank on either side. -/
theorem operator {k : Terminal} (op : String)
    (hop : ∀ r, IsPiece ⟨.token k, op.toList⟩ (' ' :: r)) (hvisible : Visible op.toList)
    (hk : k ≠ .newline ∧ k ≠ .kwWhere) :
    Separates (" " ++ op ++ " ") [(Tok.bare k op).token] where
  stops := ⟨' ', op.toList ++ [' '], by simp, rfl⟩
  begins := by
    rintro _ ⟨c, rest, rfl, hc⟩
    have hlast : Begins [' '] [] (c :: rest) := .piece (isPiece_blank hc)
    have hmid : Begins op.toList [(Tok.bare k op).token] ([' '] ++ c :: rest) := by
      have h := Begins.piece (hop (c :: rest))
      rwa [Piece.token?, String.ofList_toList] at h
    have hfirst : Begins [' '] [] ((op.toList ++ [' ']) ++ c :: rest) := by
      obtain ⟨d, word, hd, hspace⟩ := hvisible
      rw [hd]
      exact .piece (isPiece_blank hspace)
    have hall := hfirst.append (hmid.append hlast)
    rw [String.toList_append, String.toList_append, List.append_assoc]
    exact hall
  inline := .singleton op hk

theorem arrow : Separates " -> " [(Tok.bare .arrow "->").token] := by
  have hop (r : List Char) : IsPiece ⟨.token .arrow, ['-', '>']⟩ (' ' :: r) :=
    isPiece_operator rfl rfl (by decide) (by decide)
  exact operator "->" hop ⟨'-', ['>'], rfl, rfl⟩ ⟨nofun, nofun⟩

theorem fatArrow : Separates " => " [(Tok.bare .fatArrow "=>").token] := by
  have hop (r : List Char) : IsPiece ⟨.token .fatArrow, ['=', '>']⟩ (' ' :: r) :=
    isPiece_operator rfl rfl (by decide) (by decide)
  exact operator "=>" hop ⟨'=', ['>'], rfl, rfl⟩ ⟨nofun, nofun⟩

theorem doubleColon : Separates " :: " [(Tok.bare .doubleColon "::").token] := by
  have hop (r : List Char) : IsPiece ⟨.token .doubleColon, [':', ':']⟩ (' ' :: r) :=
    isPiece_operator rfl rfl (by decide) (by decide)
  exact operator "::" hop ⟨':', [':'], rfl, rfl⟩ ⟨nofun, nofun⟩

end Separates

namespace Spells

variable {a b mid : String} {ts us ms : List Token}

theorem conid {s : String} (hs : isConid s = true) : Spells s [(Tok.bare .conid s).token] where
  visible := visible_conid hs
  begins r hr := by
    have h := Begins.piece (isPiece_conid hs hr)
    rwa [Piece.token?, String.ofList_toList] at h
  inline := .singleton s ⟨nofun, nofun⟩

theorem varid {s : String} (hs : isVarid s = true) : Spells s [(Tok.bare .varid s).token] where
  visible := visible_word (Bool.and_eq_true_iff.mp hs).1
  begins r hr := by
    have h := Begins.piece (isPiece_varid hs hr)
    rwa [Piece.token?, String.ofList_toList] at h
  inline := .singleton s ⟨nofun, nofun⟩

theorem between (ha : Spells a ts) (hmid : Separates mid ms) (hb : Spells b us) :
    Spells (a ++ mid ++ b) (ts ++ ms ++ us) where
  visible := by
    rw [String.toList_append, String.toList_append, List.append_assoc]
    exact ha.visible.append _
  begins r hr := by
    have hfirst : Begins a.toList ts (mid.toList ++ (b.toList ++ r)) := by
      obtain ⟨c, rest, hc, hword⟩ := hmid.stops
      refine ha.begins _ ?_
      rw [hc]
      rintro _ ⟨⟩
      exact hword
    have hsecond : Begins mid.toList ms (b.toList ++ r) := hmid.begins _ (hb.visible.append r)
    rw [String.toList_append, String.toList_append]
    exact (hfirst.append hsecond).append (hb.begins r hr)
  inline := (ha.inline.append hmid.inline).append hb.inline

/-- A text before a closing bracket. -/
theorem closed {r : Char} {k : Terminal} (hr : bracket? r = some k) (hword : isWordChar r = false)
    (hk : k ≠ .newline ∧ k ≠ .kwWhere) (ha : Spells a ts) :
    Spells (a ++ String.singleton r) (ts ++ [(Tok.bare k (String.singleton r)).token]) where
  visible := by
    rw [String.toList_append]
    exact ha.visible.append _
  begins rest _ := by
    have hlast : Begins [r] [(Tok.bare k (String.singleton r)).token] rest := .piece (.bracket hr)
    have hfirst : Begins a.toList ts ([r] ++ rest) := ha.begins _ (by rintro _ ⟨⟩; exact hword)
    rw [String.toList_append, String.toList_singleton]
    exact hfirst.append hlast
  inline := ha.inline.append (.singleton _ hk)

/-- A text behind an opening bracket. -/
theorem opened {l : Char} {k : Terminal} (hl : bracket? l = some k) (hspace : isSpace l = false)
    (hk : k ≠ .newline ∧ k ≠ .kwWhere) (ha : Spells a ts) :
    Spells (String.singleton l ++ a) ((Tok.bare k (String.singleton l)).token :: ts) where
  visible := by
    rw [String.toList_append, String.toList_singleton]
    exact ⟨l, a.toList, rfl, hspace⟩
  begins rest hr := by
    have hfirst : Begins [l] [(Tok.bare k (String.singleton l)).token] (a.toList ++ rest) :=
      .piece (.bracket hl)
    rw [String.toList_append, String.toList_singleton]
    exact hfirst.append (ha.begins rest hr)
  inline := (Inline.singleton (String.singleton l) hk).append ha.inline

end Spells

end Lex

end TypeLens
