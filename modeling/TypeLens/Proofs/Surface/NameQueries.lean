import TypeLens.Proofs.Render.SourceTypes
import TypeLens.Proofs.Surface.Spellings
import TypeLens.Surface.Parse

/-!
Names that somebody types. A name that can be declared, written as it is before its arguments, is
read as that name, with whatever blanks around it; its first characters tell whether it is a
constructor.
-/

namespace TypeLens

namespace Text

theorem dropWhile_append_of_blank {blank : Char → Bool} {before cs : List Char}
    (hbefore : ∀ c ∈ before, blank c = true) (hcs : ∀ c ∈ cs.head?, blank c = false) :
    (before ++ cs).dropWhile blank = cs := by
  rw [List.dropWhile_append_of_pos hbefore]
  cases cs with
  | nil => rfl
  | cons c cs => exact List.dropWhile_cons_of_neg (by simpa using hcs c rfl)

/-- Blanks at the ends do not matter to a text without any. -/
theorem strip_append {blank : Char → Bool} {before cs after : List Char}
    (hbefore : ∀ c ∈ before, blank c = true) (hafter : ∀ c ∈ after, blank c = true)
    (hcs : ∀ c ∈ cs, blank c = false) (hne : cs ≠ []) :
    strip blank (before ++ cs ++ after) = cs := by
  have hhead : ∀ c ∈ (cs ++ after).head?, blank c = false := by
    intro c hc
    rw [List.head?_append_of_ne_nil _ hne] at hc
    exact hcs c (List.mem_of_head? hc)
  have hlast : ∀ c ∈ cs.reverse.head?, blank c = false := fun c hc =>
    hcs c (List.mem_reverse.1 (List.mem_of_head? hc))
  have hafter : ∀ c ∈ after.reverse, blank c = true := fun c hc => hafter c (List.mem_reverse.1 hc)
  rw [strip, List.append_assoc, dropWhile_append_of_blank hbefore hhead, List.reverse_append,
    dropWhile_append_of_blank hafter hlast, List.reverse_reverse]

/-- Printed characters of ASCII are not blank. -/
theorem isBlank_of_ascii {c : Char} (hlow : 0x21 ≤ c.toNat) (hhigh : c.toNat ≤ 0x7e) :
    isBlank c = false := by
  have hall : ∀ n ∈ blanks, n < 0x21 ∨ 0x7e < n := by decide
  rw [isBlank, List.contains_eq_mem, decide_eq_false_iff_not]
  intro hmem
  rcases hall _ hmem with h | h <;> omega

end Text

namespace Lex

variable {c : Char} {s : String}

theorem isBlank_of_isWordChar (h : isWordChar c = true) : Text.isBlank c = false := by
  have hrange {a b : Char} (h : (decide (a ≤ c) && decide (c ≤ b)) = true) (ha : 0x21 ≤ a.toNat)
      (hb : b.toNat ≤ 0x7e) : Text.isBlank c = false := by
    rw [Bool.and_eq_true, decide_eq_true_eq, decide_eq_true_eq] at h
    exact Text.isBlank_of_ascii (ha.trans h.1) (Nat.le_trans h.2 hb)
  simp only [isWordChar, Bool.or_eq_true, beq_iff_eq] at h
  rcases h with (((h | h) | h) | rfl) | rfl
  · exact hrange h (by decide) (by decide)
  · exact hrange h (by decide) (by decide)
  · exact hrange h (by decide) (by decide)
  · decide
  · decide

theorem isBlank_of_isOperatorChar (h : isOperatorChar c = true) : Text.isBlank c = false := by
  simpa using of_isOperatorChar (p := fun d => !Text.isBlank d) (by decide) h

theorem isLetter_of_isOperatorChar (h : isOperatorChar c = true) :
    Text.isLetter c = false ∧ c ≠ '_' ∧ c ≠ '[' ∧ c ≠ '(' := by
  simpa [and_assoc] using of_isOperatorChar
    (p := fun d => !Text.isLetter d && d != '_' && d != '[' && d != '(') (by decide) h

theorem isLetter_of_isLower (h : isLower c = true) : Text.isLetter c = true := by
  rw [isLower, Bool.and_eq_true, decide_eq_true_eq, decide_eq_true_eq] at h
  have hlow : 0x61 ≤ c.toNat := h.1
  have hhigh : c.toNat ≤ 0x7a := h.2
  have hfind : Text.letterRanges.find? (c.toNat ≤ ·.2) = some (0x61, 0x7a) := by
    rw [Text.letterRanges, List.find?_cons_of_neg (by simp; omega)]
    exact List.find?_cons_of_pos (by simpa using hhigh)
  rw [Text.isLetter, hfind]
  simpa using hlow

theorem IsOperator.exists_cons (h : IsOperator s) :
    ∃ c word, s.toList = c :: word ∧ isOperatorChar c = true ∧
      ∀ d ∈ word, isOperatorChar d = true := by
  obtain ⟨c, word, hcons⟩ := List.exists_cons_of_ne_nil h.ne_nil
  have hchars := h.chars
  rw [hcons] at hchars
  exact ⟨c, word, hcons, List.forall_mem_cons.1 hchars⟩

end Lex

/-- Text that is read as a constructor: it begins with a capital letter or a colon, or is `[]`. -/
def isConstructorLike (occ : String) : Bool :=
  occ == "[]" || isConOperator occ || occ.toList.head?.any Lex.isUpper

theorem isConstructorLike_of_isConid {s : String} (h : Lex.isConid s = true) :
    isConstructorLike s = true := by
  obtain ⟨c, word, hcons, hupper, -⟩ := Lex.exists_cons_of_isConid h
  simp [isConstructorLike, hcons, hupper]

/-- Only a text that is read as a constructor can be the name of a type. -/
theorem Declarable.isConstructorLike {s : String} (h : Declarable .type s) :
    isConstructorLike s = true := by
  cases h with
  | conid _ h => exact isConstructorLike_of_isConid h
  | list => rfl

namespace NameQuery

open Concrete
open TypeLens.Lex (IsPiece Piece isWordChar isOperatorChar)

variable {n : Name} {text s : String} {ps : List Piece}

theorem parse_of_pieces {t : Tree} (hpieces : Lex.pieces (Text.trim text.toList) = (ps, []))
    (hquery : pieces ps = (ps, [])) (htree : readTree (Lex.tokensFrom .first ps) = .ok t) :
    parse text = .ok (ofTree t) := by
  have hlex : lex (Text.trim text.toList) = ⟨Lex.tokensFrom .first ps, none⟩ := by
    rw [lex, hpieces, hquery]
    rfl
  rw [parse, hlex, htree]
  rfl

/-- The query is for `occ`, which is a constructor if it looks like one. -/
def Means (q : NameQuery) (occ : String) : Prop :=
  ∃ loc, q = if isConstructorLike occ then .con occ loc else .var occ loc

theorem means_con {occ : String} (h : isConstructorLike occ = true) (loc : Span) :
    Means (.con occ loc) occ := ⟨loc, (if_pos h).symm⟩

theorem means_var {occ : String} (h : isConstructorLike occ = false) (loc : Span) :
    Means (.var occ loc) occ := ⟨loc, (if_neg (by simp [h])).symm⟩

/-- A text without blanks that is read as the name `occ`. -/
structure Reads (text occ : String) : Prop where
  ne_nil : text.toList ≠ []
  visible : ∀ c ∈ text.toList, Text.isBlank c = false
  reads : ∃ ps t, Lex.pieces text.toList = (ps, []) ∧ pieces ps = (ps, []) ∧
    readTree (Lex.tokensFrom .first ps) = .ok t ∧ (ofTree t).Means occ

theorem Reads.parse_eq {occ : String} (h : Reads text occ) {before after : List Char}
    (hbefore : ∀ c ∈ before, Text.isBlank c = true) (hafter : ∀ c ∈ after, Text.isBlank c = true) :
    ∃ q, parse (String.ofList before ++ text ++ String.ofList after) = .ok q ∧ q.Means occ := by
  obtain ⟨ps, t, hpieces, hquery, htree, hmeans⟩ := h.reads
  have htrim : Text.trim (String.ofList before ++ text ++ String.ofList after).toList =
      text.toList := by
    rw [String.toList_append, String.toList_append, String.toList_ofList, String.toList_ofList]
    exact Text.strip_append hbefore hafter h.visible h.ne_nil
  exact ⟨_, parse_of_pieces (htrim ▸ hpieces) hquery htree, hmeans⟩

theorem pieces_single {k : Terminal} (h : IsPiece ⟨.token k, s.toList⟩ []) :
    Lex.pieces s.toList = ([⟨.token k, s.toList⟩], []) := by
  have hall := Lex.pieces_append h
  rwa [List.append_nil] at hall

theorem reads_conid (h : Lex.isConid s = true) : Reads s s := by
  have hp : IsPiece ⟨.token .conid, s.toList⟩ [] := Lex.isPiece_conid h fun _ h => by cases h
  refine ⟨hp.text_ne_nil, fun d hd => ?_, _, _, pieces_single hp, rfl, rfl, ?_⟩
  · exact Lex.isBlank_of_isWordChar (Lex.isWordChar_of_isConid h hd)
  · rw [ofTree, String.ofList_toList]
    exact means_con (isConstructorLike_of_isConid h) _

theorem reads_varid (h : Lex.isVarid s = true) : Reads s s := by
  have hword := Lex.isWord_of_isVarid h
  obtain ⟨c, word, hcons, hlower, -⟩ := Lex.exists_cons_of_isWord hword
  have hp : IsPiece ⟨.token .varid, s.toList⟩ [] := Lex.isPiece_varid h fun _ h => by cases h
  have hupper : Lex.isUpper c = false := by
    rcases hlower with h | rfl
    · exact Lex.isUpper_of_isLower h
    · rfl
  have hne {d : Char} (hd : isWordChar d = false) : c ≠ d := by
    rintro rfl
    rw [Lex.isWordChar_of_isWord hword (hcons ▸ List.mem_cons_self)] at hd
    cases hd
  have hbracket : s ≠ "[]" := by
    rintro rfl
    exact hne (d := '[') (by decide) (List.cons.inj hcons).1.symm
  have hcolon : c ≠ ':' := hne (by decide)
  have hlike : isConstructorLike s = false := by
    simp [isConstructorLike, isConOperator, hcons, hupper, hcolon, hbracket]
  refine ⟨hp.text_ne_nil, fun d hd => ?_, _, _, pieces_single hp, rfl, rfl, ?_⟩
  · exact Lex.isBlank_of_isWordChar (Lex.isWordChar_of_isWord hword hd)
  · rw [ofTree, String.ofList_toList]
    exact means_var hlike _

theorem reads_list : Reads "[]" "[]" :=
  ⟨by decide, by simpa using (by decide : "[]".toList.all (!Text.isBlank ·) = true),
    _, _, rfl, rfl, rfl, means_con rfl _⟩

/-- Behind an operator in parentheses no other operator character stands, so that it is a token of
its own. -/
theorem reads_operator (h : Lex.IsOperator s) : Reads ("(" ++ s ++ ")") s := by
  obtain ⟨c, word, hcons, hc, hword⟩ := h.exists_cons
  have hopen : IsPiece ⟨.token .lparen, ['(']⟩ (s.toList ++ [')']) := .bracket rfl
  have hclose : IsPiece ⟨.token .rparen, [')']⟩ [] := .bracket rfl
  have hkind : Lex.wordKind .operator s.toList = .token .operator := by
    rw [Lex.wordKind, String.ofList_toList, h.keyword]
    rfl
  have hp : IsPiece ⟨.token .operator, s.toList⟩ [')'] := by
    rw [← hkind, hcons]
    refine .run (Lex.class?_of_isOperatorChar hc) hword (fun d hd => ?_) (hcons ▸ h.comment)
    cases hd
    rfl
  have htext : ("(" ++ s ++ ")").toList = ['('] ++ (s.toList ++ [')']) := by
    rw [String.toList_append, String.toList_append, List.append_assoc]
    rfl
  have hpieces : Lex.pieces ("(" ++ s ++ ")").toList =
      ([⟨.token .lparen, ['(']⟩, ⟨.token .operator, s.toList⟩, ⟨.token .rparen, [')']⟩], []) := by
    rw [htext, Lex.pieces_append hopen, Lex.pieces_append hp, ← List.append_nil [')'],
      Lex.pieces_append hclose]
    rfl
  refine ⟨htext ▸ List.cons_ne_nil _ _, ?_, _, _, hpieces, rfl, rfl, ?_⟩
  · intro d hd
    rw [htext, List.mem_append, List.mem_append, List.mem_singleton, List.mem_singleton] at hd
    rcases hd with rfl | hd | rfl
    · decide
    · exact Lex.isBlank_of_isOperatorChar (h.chars d hd)
    · decide
  · have hbracket : s ≠ "[]" := by
      rintro rfl
      cases h.chars '[' (by decide)
    have hlike : isConstructorLike s = isConOperator s := by
      simp [isConstructorLike, hbracket, hcons, Lex.isUpper_of_isOperatorChar hc]
    show Means (if isConOperator (String.ofList s.toList) then _ else _) s
    rw [String.ofList_toList]
    cases hcon : isConOperator s with
    | true => exact means_con (hlike.trans hcon) _
    | false => exact means_var (hlike.trans hcon) _

theorem renderPrefixed_of_isOperator (h : n.isOperator = true) :
    n.renderPrefixed .never = "(" ++ n.occ ++ ")" := if_pos h

theorem renderPrefixed_of_not_isOperator (h : n.isOperator = false) :
    n.renderPrefixed .never = n.occ := if_neg (by simp [h])

/-- A name is read back from the way it is written before its arguments. -/
theorem reads_renderPrefixed (h : Declarable n.space n.occ) :
    Reads (n.renderPrefixed .never) n.occ := by
  obtain ⟨occ, module, space, unique⟩ := n
  cases h with
  | conid _ h =>
    rw [renderPrefixed_of_not_isOperator (Conid.isOperator_name ⟨⟨occ, module, space, unique⟩, h⟩)]
    exact reads_conid h
  | varid h =>
    obtain ⟨c, word, hcons, hlower, -⟩ := Lex.exists_cons_of_isWord (Lex.isWord_of_isVarid h)
    have hnot : Name.isOperator ⟨occ, module, .value, unique⟩ = false := by
      rcases hlower with h | rfl
      · simp [Name.isOperator, hcons, Lex.isLetter_of_isLower h]
      · simp [Name.isOperator, hcons]
    rw [renderPrefixed_of_not_isOperator hnot]
    exact reads_varid h
  | operator h =>
    obtain ⟨c, word, hcons, hc, -⟩ := h.exists_cons
    obtain ⟨hletter, hunderscore, hbracket, hparen⟩ := Lex.isLetter_of_isOperatorChar hc
    have hne {d : Char} (hd : c ≠ d) (rest : List Char) : occ ≠ String.ofList (d :: rest) := by
      rintro rfl
      rw [String.toList_ofList] at hcons
      exact hd (List.cons.inj hcons).1.symm
    have hoperator : Name.isOperator ⟨occ, module, .value, unique⟩ = true := by
      simp [Name.isOperator, hcons, hletter, hunderscore, hne hbracket [']'], hne hparen [')']]
    rw [renderPrefixed_of_isOperator hoperator]
    exact reads_operator h
  | list =>
    have hnot : Name.isOperator ⟨"[]", module, space, unique⟩ = false := by simp [Name.isOperator]
    rw [renderPrefixed_of_not_isOperator hnot]
    exact reads_list

end NameQuery

end TypeLens
