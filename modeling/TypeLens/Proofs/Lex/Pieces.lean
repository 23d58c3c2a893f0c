import Mathlib.Data.List.TakeWhile
import TypeLens.Lex.Lexer

/-!
What the pieces of a text are. A piece is as long as its class allows; whether a text begins with
one depends on the piece and on the first character after it.
-/

namespace TypeLens.Lex

variable {cs r r' : List Char} {p : Piece}

/-- The characters of a run that begins with `c`, and its kind. -/
def class? (c : Char) : Option ((Char → Bool) × (List Char → PieceKind)) :=
  if isSpace c then some (isSpace, fun _ => .blank)
  else if isUpper c then some (isWordChar, fun _ => .token .conid)
  else if isLower c || c == '_' then some (isWordChar, wordKind .varid)
  else if isDigit c then some (isDigit, fun _ => .token .int)
  else if isOperatorChar c then some (isOperatorChar, wordKind .operator)
  else none

/-- The class of the runs that begin with `c`: their characters and their kinds. -/
inductive Class (c : Char) : (Char → Bool) → (List Char → PieceKind) → Prop
  | blank (h : isSpace c = true) : Class c isSpace fun _ => .blank
  | conid (h : isUpper c = true) : Class c isWordChar fun _ => .token .conid
  | word (h : (isLower c || c == '_') = true) : Class c isWordChar (wordKind .varid)
  | int (h : isDigit c = true) : Class c isDigit fun _ => .token .int
  | operator (h : isOperatorChar c = true) (hword : (isLower c || c == '_') = false) :
      Class c isOperatorChar (wordKind .operator)

theorem class_of_class? {c : Char} {inRun : Char → Bool} {kind : List Char → PieceKind}
    (h : class? c = some (inRun, kind)) : Class c inRun kind := by
  unfold class? at h
  repeat' split at h
  all_goals first | cases h; done | obtain ⟨rfl, rfl⟩ := Prod.mk.inj (Option.some.inj h)
  · exact .blank ‹_›
  · exact .conid ‹_›
  · exact .word ‹_›
  · exact .int ‹_›
  · exact .operator ‹_› (Bool.eq_false_iff.2 ‹_›)

/-- The pieces that a text can begin with, before the rest of it. -/
inductive IsPiece : Piece → List Char → Prop
  | comment {body r : List Char} (hbody : ∀ c ∈ body, c ≠ '\n') (hr : ∀ c ∈ r.head?, c = '\n') :
      IsPiece ⟨.comment, '-' :: '-' :: body⟩ r
  | newline {text r : List Char} (htext : ['\n'] <+: text ∨ ['\r', '\n'] <+: text)
      (hr : breaks (text ++ r) = (text, r)) : IsPiece ⟨.token .newline, text⟩ r
  | string {body r : List Char} (hr : stringBody? (body ++ r) = some (body, r)) :
      IsPiece ⟨.token .string, '"' :: body⟩ r
  | run {c : Char} {word r : List Char} {inRun : Char → Bool} {kind : List Char → PieceKind}
      (hc : class? c = some (inRun, kind)) (hword : ∀ d ∈ word, inRun d)
      (hr : ∀ d ∈ r.head?, inRun d = false) (hcomment : ¬ ['-', '-'] <+: c :: word) :
      IsPiece ⟨kind (c :: word), c :: word⟩ r
  | bracket {c : Char} {k : Terminal} {r : List Char} (hc : bracket? c = some k) :
      IsPiece ⟨.token k, [c]⟩ r

theorem ne_of_class? {c : Char} {x : (Char → Bool) × (List Char → PieceKind)}
    (h : class? c = some x) : c ≠ '\n' ∧ c ≠ '\r' ∧ c ≠ '"' := by
  have hn : class? '\n' = none := by rfl
  have hr : class? '\r' = none := by rfl
  have hq : class? '"' = none := by rfl
  refine ⟨?_, ?_, ?_⟩ <;> rintro rfl <;> simp_all

theorem inRun_of_class? {c : Char} {inRun : Char → Bool} {kind : List Char → PieceKind}
    (h : class? c = some (inRun, kind)) : inRun c = true := by
  cases class_of_class? h with
  | blank hc | int hc | operator hc => exact hc
  | conid hc => simp [isWordChar, hc]
  | word hc => rcases Bool.or_eq_true_iff.1 hc with hc | hc <;> simp [isWordChar, hc]

theorem breaks_append (cs : List Char) : (breaks cs).1 ++ (breaks cs).2 = cs := by
  fun_induction breaks cs <;> simp_all

theorem stringBody?_eq_some {body : List Char} (h : stringBody? cs = some (body, r)) :
    cs = body ++ r ∧ ∀ r', stringBody? (body ++ r') = some (body, r') := by
  fun_induction stringBody? cs generalizing body with
  | case1 => cases h
  | case2 cs =>
    cases h
    exact ⟨rfl, fun r' => by rw [List.singleton_append, stringBody?]⟩
  | case3 => cases h
  | case4 => cases h
  | case5 c cs hc ih =>
    obtain ⟨⟨body, r⟩, hb, he⟩ := Option.map_eq_some_iff.mp h
    cases he
    obtain ⟨rfl, hall⟩ := ih hb
    exact ⟨rfl, fun r' => by simp [stringBody?, hc, hall]⟩
  | case6 => cases h
  | case7 c cs h1 h2 h3 hc ih =>
    obtain ⟨⟨body, r⟩, hb, he⟩ := Option.map_eq_some_iff.mp h
    cases he
    obtain ⟨rfl, hall⟩ := ih hb
    refine ⟨rfl, fun r' => ?_⟩
    simp only [List.cons_append]
    rw [stringBody?.eq_5 _ _ (fun hq => h1 hq) (fun hn => h2 hn) (by grind), if_neg hc, hall]
    rfl

theorem run_append {word : List Char} {inRun : Char → Bool} {kind : List Char → PieceKind}
    (hword : ∀ d ∈ word, inRun d) (hr : ∀ d ∈ r.head?, inRun d = false) :
    run kind inRun (word ++ r) = (⟨kind word, word⟩, r) := by
  have htake : r.takeWhile inRun = [] := by
    cases r with
    | nil => rfl
    | cons d r => exact List.takeWhile_cons_of_neg (by simpa using hr d rfl)
  have hdrop : r.dropWhile inRun = r := by
    cases r with
    | nil => rfl
    | cons d r => exact List.dropWhile_cons_of_neg (by simpa using hr d rfl)
  rw [run, List.takeWhile_append_of_pos hword, List.dropWhile_append_of_pos hword, htake, hdrop,
    List.append_nil]

theorem head?_dropWhile {inRun : Char → Bool} :
    ∀ c ∈ (cs.dropWhile inRun).head?, inRun c = false := by
  intro c h
  have := List.head?_dropWhile_not inRun cs
  rw [h] at this
  exact this

theorem piece?_cons {c : Char} (hcomment : ¬ ['-', '-'] <+: c :: cs)
    (hcr : ¬ ['\r', '\n'] <+: c :: cs) :
    piece? (c :: cs) =
      if c = '\n' then
        some (⟨.token .newline, (breaks (c :: cs)).1⟩, (breaks (c :: cs)).2)
      else if c = '"' then
        (stringBody? cs).map fun r => (⟨.token .string, c :: r.1⟩, r.2)
      else match class? c with
        | some (inRun, kind) => some (run kind inRun (c :: cs))
        | none => (bracket? c).map fun k => (⟨.token k, [c]⟩, cs) := by
  rw [piece?.eq_4 c cs (fun _ hc hcs => hcomment (by simp [hc, hcs]))
    (fun _ hc hcs => hcr (by simp [hc, hcs]))]
  unfold class?
  split
  · rfl
  · split
    · rfl
    · repeat' split
      all_goals simp_all

theorem of_bracket? {c : Char} {k : Terminal} (h : bracket? c = some k) :
    c ≠ '\n' ∧ c ≠ '\r' ∧ c ≠ '"' ∧ c ≠ '-' ∧ class? c = none := by
  unfold bracket? at h
  split at h <;> first | cases h; done | exact ⟨by decide, by decide, by decide, by decide, by rfl⟩

theorem isPiece_of_comment
    (h : piece? ('-' :: '-' :: cs) = some (p, r)) :
    '-' :: '-' :: cs = p.text ++ r ∧ IsPiece p r := by
  have hbody : ∀ c ∈ cs.takeWhile (· ≠ '\n'), c ≠ '\n' := fun c hc => by
    simpa using List.mem_takeWhile_imp hc
  have hr : ∀ c ∈ (cs.dropWhile (· ≠ '\n')).head?, c = '\n' := fun c hc => by
    simpa using head?_dropWhile c hc
  have hrun : run (fun _ => .comment) (· ≠ '\n')
      ('-' :: '-' :: cs.takeWhile (· ≠ '\n') ++ cs.dropWhile (· ≠ '\n')) =
        (⟨.comment, '-' :: '-' :: cs.takeWhile (· ≠ '\n')⟩, cs.dropWhile (· ≠ '\n')) :=
    run_append (by simpa using hbody) head?_dropWhile
  rw [List.cons_append, List.cons_append, List.takeWhile_append_dropWhile] at hrun
  rw [piece?, hrun] at h
  cases h
  exact ⟨by simp, .comment hbody hr⟩

theorem isPiece_of_class? {c : Char} {inRun : Char → Bool} {kind : List Char → PieceKind}
    (hc : class? c = some (inRun, kind)) (hcomment : ¬ ['-', '-'] <+: c :: cs)
    (h : run kind inRun (c :: cs) = (p, r)) : c :: cs = p.text ++ r ∧ IsPiece p r := by
  cases h
  have hsplit : c :: cs = c :: cs.takeWhile inRun ++ cs.dropWhile inRun := by simp
  have hin := inRun_of_class? hc
  refine ⟨by simp, ?_⟩
  rw [List.takeWhile_cons_of_pos hin, List.dropWhile_cons_of_pos hin]
  refine .run hc (fun d hd => List.mem_takeWhile_imp hd) head?_dropWhile fun hpre => ?_
  exact hcomment (hsplit ▸ hpre.trans (List.prefix_append _ _))

theorem isPiece_of_piece? (h : piece? cs = some (p, r)) : cs = p.text ++ r ∧ IsPiece p r := by
  by_cases hcomment : ['-', '-'] <+: cs
  · obtain ⟨cs, rfl⟩ := hcomment
    exact isPiece_of_comment h
  by_cases hcr : ['\r', '\n'] <+: cs
  · obtain ⟨cs, rfl⟩ := hcr
    rw [show ['\r', '\n'] ++ cs = '\r' :: '\n' :: cs from rfl, piece?] at h
    cases h
    refine ⟨(breaks_append _).symm, .newline (.inr ?_) (breaks_append _ ▸ rfl)⟩
    simp [breaks]
  cases cs with
  | nil => cases h
  | cons c cs =>
    rw [piece?_cons hcomment hcr] at h
    split at h
    · subst c
      cases h
      refine ⟨(breaks_append _).symm, .newline (.inl ?_) (breaks_append _ ▸ rfl)⟩
      simp [breaks]
    split at h
    · subst c
      obtain ⟨⟨body, r⟩, hb, he⟩ := Option.map_eq_some_iff.mp h
      cases he
      obtain ⟨rfl, hall⟩ := stringBody?_eq_some hb
      exact ⟨rfl, .string (hall _)⟩
    split at h
    · rename_i inRun kind hc
      exact isPiece_of_class? hc hcomment (Option.some.inj h)
    · obtain ⟨k, hk, he⟩ := Option.map_eq_some_iff.mp h
      cases he
      exact ⟨rfl, .bracket hk⟩

theorem piece?_of_isPiece (h : IsPiece p r) : piece? (p.text ++ r) = some (p, r) := by
  cases h with
  | comment hbody hr =>
    rw [List.cons_append, List.cons_append, piece?, ← List.cons_append, ← List.cons_append,
      run_append (by simpa using hbody) (by simpa using hr)]
  | newline htext hr =>
    rename_i text
    have hbreaks : piece? (text ++ r) =
        some (⟨.token .newline, (breaks (text ++ r)).1⟩, (breaks (text ++ r)).2) := by
      rcases htext with ⟨text, rfl⟩ | ⟨text, rfl⟩
      · rw [show ['\n'] ++ text ++ r = '\n' :: (text ++ r) from rfl,
          piece?_cons (by simp) (by simp), if_pos rfl]
      · exact piece?.eq_3 _
    rw [hbreaks, hr]
  | string hr =>
    rw [List.cons_append, piece?_cons (by simp) (by simp), if_neg (by decide), if_pos rfl, hr]
    rfl
  | @run c word r inRun kind hc hword hr hcomment =>
    obtain ⟨hn, hcr, hq⟩ := ne_of_class? hc
    have hstop : ¬ ['-', '-'] <+: c :: word ++ r := by
      intro hpre
      cases word with
      | cons d word => exact hcomment (by simpa using hpre)
      | nil =>
        -- a run of dashes goes on
        obtain ⟨rfl, hd⟩ : '-' = c ∧ ['-'] <+: r := by simpa using hpre
        obtain ⟨r, rfl⟩ := hd
        have hdash := inRun_of_class? hc
        rw [hr '-' rfl] at hdash
        cases hdash
    rw [List.cons_append] at hstop ⊢
    rw [piece?_cons hstop (by simp [Ne.symm hcr]), if_neg hn, if_neg hq, hc,
      ← List.cons_append]
    exact congrArg some (run_append (by simpa using ⟨inRun_of_class? hc, hword⟩) hr)
  | @bracket c k r hc =>
    obtain ⟨hn, hcr, hq, hd, hclass⟩ := of_bracket? hc
    rw [List.cons_append, piece?_cons (by simp [Ne.symm hd]) (by simp [Ne.symm hcr]), if_neg hn,
      if_neg hq, hclass, hc]
    rfl

/-- What a text begins with, and nothing else. -/
theorem piece?_eq_some_iff : piece? cs = some (p, r) ↔ cs = p.text ++ r ∧ IsPiece p r := by
  refine ⟨isPiece_of_piece?, ?_⟩
  rintro ⟨rfl, h⟩
  exact piece?_of_isPiece h

namespace IsPiece

theorem text_ne_nil (h : IsPiece p r) : p.text ≠ [] := by
  cases h with
  | newline htext => rintro rfl; simp at htext
  | _ => simp

/-- Of what follows, only the first character matters; line ends are another matter. -/
theorem congr (h : IsPiece p r) (hk : p.kind ≠ .token .newline) (hr : r.head? = r'.head?) :
    IsPiece p r' := by
  cases h with
  | comment hbody h => exact .comment hbody (hr ▸ h)
  | newline => exact absurd rfl hk
  | string h => exact .string ((stringBody?_eq_some h).2 r')
  | run hc hword h hcomment => exact .run hc hword (hr ▸ h) hcomment
  | bracket hc => exact .bracket hc

end IsPiece

-- All pieces of a text

theorem length_rest (h : piece? cs = some (p, r)) : r.length < cs.length := by
  obtain ⟨rfl, hp⟩ := piece?_eq_some_iff.mp h
  have := List.length_pos_iff.mpr hp.text_ne_nil
  rw [List.length_append]
  omega

/-- Any fuel will do that is not less than the number of characters. -/
theorem piecesWithin_eq {n m : Nat} (hn : cs.length ≤ n) (hm : cs.length ≤ m) :
    piecesWithin n cs = piecesWithin m cs := by
  induction n generalizing m cs with
  | zero =>
    obtain rfl : cs = [] := List.length_eq_zero_iff.mp (by omega)
    cases m <;> rfl
  | succ n ih =>
    cases m with
    | zero =>
      obtain rfl : cs = [] := List.length_eq_zero_iff.mp (by omega)
      rfl
    | succ m =>
      rw [piecesWithin, piecesWithin]
      split
      · rename_i hp
        have := length_rest hp
        rw [ih (m := m) (by omega) (by omega)]
      · rfl

theorem pieces_of_none (h : piece? cs = none) : pieces cs = ([], cs) := by
  cases cs with
  | nil => rfl
  | cons c cs => rw [pieces, List.length_cons, piecesWithin, h]

theorem pieces_of_some (h : piece? cs = some (p, r)) :
    pieces cs = (p :: (pieces r).1, (pieces r).2) := by
  have := length_rest h
  cases cs with
  | nil => cases h
  | cons c cs =>
    rw [List.length_cons] at this
    rw [pieces, List.length_cons, piecesWithin, h]
    dsimp only
    rw [piecesWithin_eq (m := r.length) (by omega) (le_refl _)]
    rfl

theorem pieces_nil : pieces [] = ([], []) := rfl

/-- A text is built up from what no piece begins, one piece after the other. -/
theorem pieces_induction {motive : List Char → Prop} (none : ∀ cs, piece? cs = none → motive cs)
    (some : ∀ p r, IsPiece p r → motive r → motive (p.text ++ r)) (cs : List Char) : motive cs := by
  induction hn : cs.length using Nat.strong_induction_on generalizing cs with
  | _ n ih =>
    cases hp : piece? cs with
    | none => exact none cs hp
    | some x =>
      obtain ⟨p, r⟩ := x
      have hlt := length_rest hp
      obtain ⟨rfl, h⟩ := piece?_eq_some_iff.mp hp
      exact some p r h (ih r.length (hn ▸ hlt) r rfl)

theorem pieces_append (h : IsPiece p r) :
    pieces (p.text ++ r) = (p :: (pieces r).1, (pieces r).2) :=
  pieces_of_some (piece?_of_isPiece h)

/-- The pieces and what is left after them are the text. -/
theorem text_pieces (cs : List Char) :
    (pieces cs).1.flatMap (·.text) ++ (pieces cs).2 = cs := by
  induction cs using pieces_induction with
  | none cs h => rw [pieces_of_none h]; rfl
  | some p r h ih => rw [pieces_append h, List.flatMap_cons, List.append_assoc, ih]

theorem tokensFrom_append (pos : Position) (ps qs : List Piece) :
    tokensFrom pos (ps ++ qs) =
      tokensFrom pos ps ++ tokensFrom (pos.after (ps.flatMap (·.text))) qs := by
  induction ps generalizing pos with
  | nil => rfl
  | cons p ps ih =>
    obtain ⟨k, text⟩ := p
    have hafter : pos.after (text ++ ps.flatMap (·.text)) =
        (pos.after text).after (ps.flatMap (·.text)) := List.foldl_append
    cases k <;> simp only [List.cons_append, tokensFrom, ih, List.flatMap_cons, hafter]

/-- A keyword is a kind of its own. -/
theorem kind_ne_of_keyword? {text : String} {k : Terminal} (h : keyword? text = some k) :
    k ∉ [.itemSep, .blockOpen, .blockClose, .newline, .conid, .varid, .operator, .int, .string] := by
  obtain ⟨before, after, hsplit, -⟩ := List.lookup_eq_some_iff.mp h
  have hall : ∀ x ∈ before ++ (text, k) :: after,
      x.2 ∉ [.itemSep, .blockOpen, .blockClose, .newline, .conid, .varid, .operator, .int,
        .string] := by
    rw [← hsplit]
    decide
  exact hall (text, k) (by simp)

/-- The kind of a word is its class, unless it is a keyword. -/
theorem kind_of_wordKind {k k' : Terminal} {text : List Char} (h : wordKind k text = .token k') :
    k' = k ∨ keyword? (String.ofList text) = some k' := by
  rw [wordKind] at h
  cases hk : keyword? (String.ofList text) <;> simp_all

/-- The kinds of runs. -/
theorem kind_of_class? {c : Char} {inRun : Char → Bool} {kind : List Char → PieceKind}
    {text : List Char} {k : Terminal} (hc : class? c = some (inRun, kind))
    (hk : kind text = .token k) :
    (k = .conid ∧ isUpper c = true ∧ inRun = isWordChar) ∨ (k = .int ∧ inRun = isDigit) ∨
      (k = .varid ∧ inRun = isWordChar) ∨ (k = .operator ∧ inRun = isOperatorChar) ∨
      keyword? (String.ofList text) = some k := by
  cases class_of_class? hc with
  | blank => cases hk
  | conid h =>
    cases hk
    exact .inl ⟨rfl, h, rfl⟩
  | int =>
    cases hk
    exact .inr (.inl ⟨rfl, rfl⟩)
  | word | operator => rcases kind_of_wordKind hk with rfl | h <;> simp_all

theorem kind_ne_of_class? {c : Char} {inRun : Char → Bool} {kind : List Char → PieceKind}
    {text : List Char} {k : Terminal} (hc : class? c = some (inRun, kind))
    (hk : kind text = .token k) :
    k ∉ [.itemSep, .blockOpen, .blockClose, .newline, .string] := by
  rcases kind_of_class? hc hk with ⟨rfl, -⟩ | ⟨rfl, -⟩ | ⟨rfl, -⟩ | ⟨rfl, -⟩ | h
  iterate 4 decide
  intro h'
  exact kind_ne_of_keyword? h (by grind)

theorem kind_ne_of_isPiece {k : Terminal} (h : IsPiece p r) (hk : p.kind = .token k) :
    k ≠ .itemSep ∧ k ≠ .blockOpen ∧ k ≠ .blockClose := by
  cases h with
  | comment => cases hk
  | newline | string =>
    cases hk
    decide
  | run hc =>
    have := kind_ne_of_class? hc hk
    simp_all
  | bracket hc =>
    cases hk
    unfold bracket? at hc
    split at hc <;> cases hc <;> decide

theorem mem_pieces (h : p ∈ (pieces cs).1) : ∃ r, IsPiece p r := by
  induction cs using pieces_induction with
  | none cs hn =>
    rw [pieces_of_none hn] at h
    exact absurd h List.not_mem_nil
  | some q r hq ih =>
    rw [pieces_append hq] at h
    rcases List.mem_cons.mp h with rfl | h
    · exact ⟨r, hq⟩
    · exact ih h

theorem mem_tokensFrom {pos : Position} {ps : List Piece} {t : Token} (h : t ∈ tokensFrom pos ps) :
    ∃ p ∈ ps, p.kind = .token t.kind ∧ t.text = String.ofList p.text := by
  induction ps generalizing pos with
  | nil => exact absurd h List.not_mem_nil
  | cons p ps ih =>
    obtain ⟨k, text⟩ := p
    cases k with
    | token k =>
      rcases List.mem_cons.mp h with rfl | h
      · exact ⟨_, List.mem_cons_self, rfl, rfl⟩
      · obtain ⟨q, hq, ht⟩ := ih h
        exact ⟨q, List.mem_cons_of_mem _ hq, ht⟩
    | blank | comment =>
      obtain ⟨q, hq, ht⟩ := ih h
      exact ⟨q, List.mem_cons_of_mem _ hq, ht⟩

theorem exists_isPiece {t : Token} (h : t ∈ (lex cs).tokens) :
    ∃ p r, IsPiece p r ∧ p.kind = .token t.kind ∧ t.text = String.ofList p.text := by
  obtain ⟨p, hp, hk, ht⟩ := mem_tokensFrom h
  obtain ⟨r, hr⟩ := mem_pieces hp
  exact ⟨p, r, hr, hk, ht⟩

/-- The characters of a token are characters of the text. -/
theorem mem_of_mem_lex {t : Token} (h : t ∈ (lex cs).tokens) {c : Char} (hc : c ∈ t.text.toList) :
    c ∈ cs := by
  obtain ⟨p, hp, -, ht⟩ := mem_tokensFrom h
  rw [ht, String.toList_ofList] at hc
  rw [← text_pieces cs]
  exact List.mem_append_left _ (List.mem_flatMap.2 ⟨p, hp, hc⟩)

/-- Lexing makes no tokens of the kinds that come from layout. -/
theorem kind_ne_of_mem_lex {t : Token} (h : t ∈ (lex cs).tokens) :
    t.kind ≠ .itemSep ∧ t.kind ≠ .blockOpen ∧ t.kind ≠ .blockClose := by
  obtain ⟨p, r, hr, hk, -⟩ := exists_isPiece h
  exact kind_ne_of_isPiece hr hk

theorem IsPiece.of_conid (h : IsPiece p r) (hk : p.kind = .token .conid) :
    ∃ c word, p.text = c :: word ∧ isUpper c ∧ ∀ d ∈ word, isWordChar d := by
  cases h with
  | comment | newline | string => cases hk
  | bracket hc =>
    cases hk
    unfold bracket? at hc
    split at hc <;> cases hc
  | @run c word _ _ _ hc hword =>
    rcases kind_of_class? hc hk with ⟨-, hu, rfl⟩ | ⟨h, -⟩ | ⟨h, -⟩ | ⟨h, -⟩ | h
    · exact ⟨c, word, rfl, hu, hword⟩
    iterate 3 cases h
    exact absurd h fun h => kind_ne_of_keyword? h (by decide)

end TypeLens.Lex
