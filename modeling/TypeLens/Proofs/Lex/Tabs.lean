import TypeLens.Proofs.Lex.Lines

/-!
Tabs as spaces. Where the tabs of a text lie outside of strings and comments, the pieces of the text
with its tabs expanded are those of the text, each expanded on its own.
-/

namespace TypeLens.Lex

open Layout

variable {w col : Nat} {a b r x y : List Char} {p : Piece}

/-- The column after a character, with tab stops every `w` columns. -/
def tabColumn (w col : Nat) (c : Char) : Nat :=
  if c = '\n' then 0 else if c = '\t' then col + (w - col % w) else col + 1

def columnAfter (w col : Nat) (cs : List Char) : Nat := cs.foldl (tabColumn w) col

/-- What one character becomes. -/
def expandChar (w col : Nat) (c : Char) : List Char :=
  if c = '\t' then List.replicate (w - col % w) ' ' else [c]

/-- A text with its tabs expanded that starts at a column. -/
def expandFrom (w : Nat) : Nat → List Char → List Char
  | _, [] => []
  | col, c :: cs => expandChar w col c ++ expandFrom w (tabColumn w col c) cs

/-- A text with every tab expanded to stops of `w` columns. -/
def expandTabs (w : Nat) (cs : List Char) : List Char := expandFrom w 0 cs

theorem expandFrom_append (w col : Nat) (a b : List Char) :
    expandFrom w col (a ++ b) = expandFrom w col a ++ expandFrom w (columnAfter w col a) b := by
  induction a generalizing col with
  | nil => rfl
  | cons c a ih => simp [expandFrom, ih, columnAfter]

theorem expandChar_of_ne {c : Char} (h : c ≠ '\t') : expandChar w col c = [c] := if_neg h

theorem expandFrom_cons_of_ne {c : Char} (h : c ≠ '\t') (cs : List Char) :
    expandFrom w col (c :: cs) = c :: expandFrom w (tabColumn w col c) cs := by
  rw [expandFrom, expandChar_of_ne h, List.singleton_append]

/-- A tab is at least one space. -/
theorem expandFrom_tab (hw : 0 < w) (col : Nat) (cs : List Char) :
    ∃ n, expandFrom w col ('\t' :: cs) =
      ' ' :: (List.replicate n ' ' ++ expandFrom w (tabColumn w col '\t') cs) := by
  have := Nat.mod_lt col hw
  refine ⟨w - col % w - 1, ?_⟩
  rw [expandFrom, expandChar, if_pos rfl, ← List.cons_append, ← List.replicate_succ]
  congr 2
  omega

theorem expandFrom_of_not_mem (h : '\t' ∉ a) : expandFrom w col a = a := by
  induction a generalizing col with
  | nil => rfl
  | cons c a ih =>
    rw [List.mem_cons, not_or] at h
    rw [expandFrom_cons_of_ne (Ne.symm h.1), ih h.2]

theorem mem_expandFrom {c : Char} (h : c ∈ expandFrom w col a) : c = ' ' ∨ c ∈ a ∧ c ≠ '\t' := by
  induction a generalizing col with
  | nil => exact absurd h List.not_mem_nil
  | cons d a ih =>
    rw [expandFrom, List.mem_append] at h
    rcases h with h | h
    · by_cases hd : d = '\t'
      · rw [expandChar, if_pos hd] at h
        exact .inl (List.eq_of_mem_replicate h)
      · rw [expandChar_of_ne hd, List.mem_singleton] at h
        subst c
        exact .inr ⟨List.mem_cons_self, hd⟩
    · exact (ih h).imp_right fun h => ⟨List.mem_cons_of_mem d h.1, h.2⟩

theorem tab_not_mem_expandFrom : '\t' ∉ expandFrom w col a := fun h => by
  rcases mem_expandFrom h with h | h
  · exact absurd h (by decide)
  · exact h.2 rfl

theorem newline_not_mem_expandFrom (h : '\n' ∉ a) : '\n' ∉ expandFrom w col a := fun hmem => by
  rcases mem_expandFrom hmem with h' | h'
  · exact absurd h' (by decide)
  · exact h h'.1

-- Columns

theorem length_expandFrom (h : '\n' ∉ a) :
    col + (expandFrom w col a).length = columnAfter w col a := by
  induction a generalizing col with
  | nil => rfl
  | cons c a ih =>
    rw [List.mem_cons, not_or] at h
    have hc : col + (expandChar w col c).length = tabColumn w col c := by
      rw [expandChar, tabColumn, if_neg (Ne.symm h.1)]
      split <;> simp
    rw [expandFrom, List.length_append, ← Nat.add_assoc, hc, ih h.2]
    rfl

/-- Line ends start the columns anew. -/
theorem lastLine_expandFrom (h : '\n' ∈ a) :
    lastLine (expandFrom w col a) = expandTabs w (lastLine a) := by
  obtain ⟨b, hb⟩ := exists_eq_lastLine h
  have hline : '\n' ∉ expandTabs w (lastLine a) := newline_not_mem_expandFrom (not_mem_lastLine a)
  have hsplit : expandFrom w col a =
      expandFrom w col b ++ '\n' :: expandTabs w (lastLine a) := by
    rw [hb, expandFrom_append, expandFrom_cons_of_ne (by decide), ← hb]
    rfl
  rw [hsplit, ← List.singleton_append, ← List.append_assoc, lastLine_append_of_not_mem hline,
    lastLine_newline, List.nil_append]

theorem foldl_indent_eq (hw : 0 < w) (h : '\n' ∉ a) (col : Nat) :
    a.foldl (fun col c =>
      if c = '\t' then
        if 0 < (w : Int) then col + ((w : Int).toNat - col % (w : Int).toNat) else col
      else col + 1) col = columnAfter w col a := by
  induction a generalizing col with
  | nil => rfl
  | cons c a ih =>
    rw [List.mem_cons, not_or] at h
    rw [List.foldl_cons, ih h.2, columnAfter, columnAfter, List.foldl_cons, tabColumn,
      if_neg (Ne.symm h.1)]
    simp [hw]

/-- Indentation is measured as it is expanded. -/
theorem indentWidth_eq (hw : 0 < w) (h : '\n' ∉ a) :
    indentWidth w a = (expandTabs w a).length := by
  rw [indentWidth, foldl_indent_eq hw h, ← length_expandFrom h, Nat.zero_add, expandTabs]

/-- Without tabs the tab width does not matter. -/
theorem indentWidth_of_not_mem (w : Int) (h : '\t' ∉ a) : indentWidth w a = a.length := by
  suffices ∀ col, a.foldl (fun col c =>
      if c = '\t' then if 0 < w then col + (w.toNat - col % w.toNat) else col else col + 1) col =
        col + a.length by
    simpa [indentWidth] using this 0
  induction a with
  | nil => simp
  | cons c a ih =>
    rw [List.mem_cons, not_or] at h
    intro col
    rw [List.foldl_cons, if_neg (Ne.symm h.1), ih h.2, List.length_cons]
    omega

-- Pieces

theorem head?_expandFrom (hw : 0 < w) (col : Nat) (x : List Char) :
    (expandFrom w col x).head? = x.head?.map fun c => if c = '\t' then ' ' else c := by
  cases x with
  | nil => rfl
  | cons c x =>
    by_cases hc : c = '\t'
    · subst c
      obtain ⟨n, hn⟩ := expandFrom_tab hw col x
      rw [hn]
      rfl
    · rw [expandFrom_cons_of_ne hc, List.head?_cons, List.head?_cons, Option.map_some, if_neg hc]

/-- Unless the text goes on with a tab, it goes on as before. -/
theorem head?_expandFrom_of_ne (hw : 0 < w) (h : ∀ c ∈ x.head?, c ≠ '\t') :
    (expandFrom w col x).head? = x.head? := by
  rw [head?_expandFrom hw]
  cases x with
  | nil => rfl
  | cons c x => simp [h c rfl]

theorem prefix_of_expandFrom (hw : 0 < w) {c : Char} (hc : c ≠ ' ') (h : [c] <+: expandFrom w col x) :
    [c] <+: x := by
  obtain ⟨z, hz⟩ := h
  have hhead := head?_expandFrom hw col x
  rw [← hz] at hhead
  cases x with
  | nil => cases hhead
  | cons d x =>
    by_cases hd : d = '\t'
    · simp [hd, hc] at hhead
    · simp [hd] at hhead
      simp [hhead]

theorem breaks_expandFrom (hw : 0 < w) (x : List Char) (col : Nat) :
    breaks (expandFrom w col x) =
      (expandFrom w col (breaks x).1, expandFrom w (columnAfter w col (breaks x).1) (breaks x).2) := by
  fun_induction breaks x generalizing col with
  | case1 cs ih =>
    rw [expandFrom_cons_of_ne (by decide), breaks, ih]
    simp [expandFrom_cons_of_ne, columnAfter]
  | case2 cs ih =>
    rw [expandFrom_cons_of_ne (by decide), expandFrom_cons_of_ne (by decide), breaks, ih]
    simp [expandFrom_cons_of_ne, columnAfter]
  | case3 cs ih =>
    rw [expandFrom_cons_of_ne (by decide), breaks, ih]
    simp [expandFrom_cons_of_ne, columnAfter]
  | case4 cs ih =>
    rw [expandFrom, expandChar, if_pos rfl, isBreak_replicate, ih]
    simp [expandFrom, expandChar, columnAfter]
  | case5 cs hnewline hcrlf hspace htab =>
    cases cs with
    | nil => rfl
    | cons c cs =>
      have hc : c ≠ '\t' := fun h => htab cs (by rw [h])
      rw [expandFrom_cons_of_ne hc, breaks_of_ne (fun h => hspace cs (by rw [h])) hc]
      · simp [expandFrom, expandChar_of_ne hc, columnAfter]
      · rintro (⟨_, h⟩ | ⟨z, h⟩)
        · exact hnewline cs (by rw [← (List.cons.inj h).1])
        · obtain ⟨hcr, hz⟩ := List.cons.inj h
          obtain ⟨z', rfl⟩ := prefix_of_expandFrom hw (by decide) ⟨z, hz⟩
          exact hcrlf z' (by rw [← hcr]; rfl)

theorem inRun_blank {c : Char} {inRun : Char → Bool} {kind : List Char → PieceKind}
    (h : class? c = some (inRun, kind)) :
    (isSpace c ∧ inRun = isSpace ∧ kind = fun _ => .blank) ∨
      (c ≠ '\t' ∧ inRun ' ' = false ∧ inRun '\t' = false ∧ ∀ text, kind text ≠ .blank) := by
  cases class_of_class? h with
  | blank hc => exact .inl ⟨hc, rfl, rfl⟩
  | conid hc | word hc | int hc | operator hc =>
    refine .inr ⟨?_, rfl, rfl, fun _ h => by cases h⟩
    rintro rfl
    cases hc

theorem class?_of_isSpace {c : Char} (h : isSpace c) : class? c = some (isSpace, fun _ => .blank) :=
  if_pos h

/-- Blanks are expanded to blanks. -/
theorem IsPiece.expand_blank (hw : 0 < w) (hcs : ∀ c ∈ a, isSpace c) (ha : a ≠ [])
    (hr : ∀ c ∈ r.head?, isSpace c = false) (col : Nat) :
    IsPiece ⟨.blank, expandFrom w col a⟩ (expandFrom w (columnAfter w col a) r) := by
  have hall : ∀ c ∈ expandFrom w col a, isSpace c := fun c hc => by
    rcases mem_expandFrom hc with rfl | hc
    · decide
    · exact hcs c hc.1
  have hhead : (expandFrom w (columnAfter w col a) r).head? = r.head? :=
    head?_expandFrom_of_ne hw fun c hc => by
      rintro rfl
      exact absurd (hr '\t' hc) (by decide)
  cases he : expandFrom w col a with
  | nil =>
    have := head?_expandFrom hw col a
    rw [he] at this
    cases a <;> simp_all
  | cons d word =>
    rw [he] at hall
    have hd := hall d List.mem_cons_self
    refine @IsPiece.run d word _ isSpace (fun _ => .blank) (class?_of_isSpace hd)
      (fun e he => hall e (List.mem_cons_of_mem d he)) (hhead ▸ hr) ?_
    rintro ⟨_, h⟩
    rw [← (List.cons.inj h).1] at hd
    exact absurd hd (by decide)

/-- Tabs stand in blanks and in line ends, besides strings and comments. -/
theorem IsPiece.tab_not_mem (h : IsPiece p r)
    (htab : p.kind = .comment ∨ p.kind = .token .string → '\t' ∉ p.text) (hblank : p.kind ≠ .blank)
    (hline : p.kind ≠ .token .newline) : '\t' ∉ p.text := by
  cases h with
  | comment => exact htab (.inl rfl)
  | newline => exact absurd rfl hline
  | string => exact htab (.inr rfl)
  | @run c word _ inRun kind hc hword =>
    rcases inRun_blank hc with ⟨-, -, rfl⟩ | ⟨hne, -, htab, -⟩
    · exact absurd rfl hblank
    · rw [List.mem_cons, not_or]
      refine ⟨Ne.symm hne, fun hmem => ?_⟩
      rw [hword _ hmem] at htab
      cases htab
  | bracket hc =>
    refine fun hmem => absurd (of_bracket? hc).2.2.2.2 ?_
    rw [← List.mem_singleton.mp hmem]
    simp [class?, isSpace]

/-- Each piece is expanded on its own. -/
theorem IsPiece.expand (hw : 0 < w) (h : IsPiece p r)
    (htab : p.kind = .comment ∨ p.kind = .token .string → '\t' ∉ p.text) (col : Nat) :
    IsPiece ⟨p.kind, expandFrom w col p.text⟩ (expandFrom w (columnAfter w col p.text) r) := by
  have hsame (hblank : p.kind ≠ .blank) (hline : p.kind ≠ .token .newline) :
      expandFrom w col p.text = p.text := expandFrom_of_not_mem (h.tab_not_mem htab hblank hline)
  cases h with
  | comment hbody hr =>
    rw [hsame (by simp) (by simp)]
    refine .comment hbody ?_
    rwa [head?_expandFrom_of_ne hw fun c hc => by rw [hr c hc]; decide]
  | newline htext hr =>
    refine .newline ?_ ?_
    · rcases htext with ⟨n, rfl⟩ | ⟨n, rfl⟩ <;> simp [expandFrom_cons_of_ne]
    · rw [← expandFrom_append, breaks_expandFrom hw, hr]
  | string hr =>
    rw [hsame (by simp) (by simp)]
    exact .string ((stringBody?_eq_some hr).2 _)
  | @run c word _ inRun kind hc hword hr hcomment =>
    rcases inRun_blank hc with ⟨hspace, rfl, rfl⟩ | ⟨hne, hspace, -, hblank⟩
    · exact .expand_blank hw (by simpa using ⟨hspace, hword⟩) (by simp) hr col
    · rw [hsame (hblank _) fun hk => kind_ne_of_class? hc hk (by simp)]
      refine .run hc hword (fun d hd => ?_) hcomment
      rw [head?_expandFrom hw] at hd
      obtain ⟨e, he, rfl⟩ := Option.map_eq_some_iff.mp hd
      split
      · exact hspace
      · exact hr e he
  | bracket hc =>
    rw [hsame (by simp) fun hk => by
      cases hk
      unfold bracket? at hc
      split at hc <;> cases hc]
    exact .bracket hc

theorem stringBody?_cons {c : Char} {cs : List Char} (hquote : c ≠ '"') (hline : c ≠ '\n')
    (hescape : c ≠ '\\') :
    stringBody? (c :: cs) = (stringBody? cs).map (·.map (c :: ·) id) := by
  rw [stringBody?.eq_5 _ _ hquote hline fun d _ h => absurd h hescape, if_neg hescape]

theorem stringBody?_spaces (h : stringBody? x = none) (n : Nat) :
    stringBody? (List.replicate n ' ' ++ x) = none := by
  induction n with
  | zero => exact h
  | succ n ih =>
    rw [List.replicate_succ, List.cons_append,
      stringBody?_cons (by decide) (by decide) (by decide), ih]
    rfl

/-- A string without an end does not get one. -/
theorem stringBody?_expandFrom (hw : 0 < w) (h : stringBody? x = none) (col : Nat) :
    stringBody? (expandFrom w col x) = none := by
  fun_induction stringBody? x generalizing col with
  | case1 => rfl
  | case2 cs => cases h
  | case3 =>
    rw [expandFrom_cons_of_ne (by decide), stringBody?]
  | case4 =>
    rw [expandFrom_cons_of_ne (by decide), expandFrom_cons_of_ne (by decide), stringBody?,
      if_pos rfl]
  | case5 c cs hc ih =>
    rw [Option.map_eq_none_iff] at h
    rw [expandFrom_cons_of_ne (by decide)]
    by_cases htab : c = '\t'
    · subst c
      obtain ⟨n, hn⟩ := expandFrom_tab hw (tabColumn w col '\\') cs
      rw [hn, stringBody?, if_neg (by decide), stringBody?_spaces (ih h _)]
      rfl
    · rw [expandFrom_cons_of_ne htab, stringBody?, if_neg hc, ih h]
      rfl
  | case6 cs h1 h2 h3 =>
    cases cs with
    | nil =>
      rw [expandFrom_cons_of_ne (by decide)]
      rfl
    | cons c cs => exact absurd rfl (h3 c cs rfl)
  | case7 c cs h1 h2 h3 hc ih =>
    rw [Option.map_eq_none_iff] at h
    by_cases htab : c = '\t'
    · subst c
      obtain ⟨n, hn⟩ := expandFrom_tab hw col cs
      rw [hn, ← List.cons_append, ← List.replicate_succ, stringBody?_spaces (ih h _)]
    · rw [expandFrom_cons_of_ne htab, stringBody?_cons h1 h2 hc, ih h]
      rfl

/-- A tab begins a blank. -/
theorem ne_tab_of_piece?_eq_none (h : piece? x = none) : ∀ c ∈ x.head?, c ≠ '\t' := by
  rintro c hc rfl
  obtain ⟨x, rfl⟩ : ∃ z, x = '\t' :: z := by
    cases x with
    | nil => cases hc
    | cons d z => exact ⟨z, by rw [Option.some.inj hc]⟩
  rw [piece?_cons (by simp) (by simp)] at h
  cases h

/-- What begins no piece still begins none. -/
theorem piece?_expandFrom (hw : 0 < w) (h : piece? x = none) (col : Nat) :
    piece? (expandFrom w col x) = none := by
  cases x with
  | nil => rfl
  | cons c x =>
    have hcomment : ¬ ['-', '-'] <+: c :: x := by
      rintro ⟨y, hy⟩
      rw [← hy, List.cons_append, List.singleton_append, piece?] at h
      cases h
    have hcrlf : ¬ ['\r', '\n'] <+: c :: x := by
      rintro ⟨y, hy⟩
      rw [← hy, List.cons_append, List.singleton_append, piece?] at h
      cases h
    have htab := ne_tab_of_piece?_eq_none h c rfl
    rw [piece?_cons hcomment hcrlf] at h
    have hkeep {d e : Char} (he : e ≠ ' ') (hnot : ¬ [d, e] <+: c :: x) :
        ¬ [d, e] <+: c :: expandFrom w (tabColumn w col c) x := by
      rintro ⟨y, hy⟩
      obtain ⟨rfl, hy⟩ := List.cons.inj hy
      obtain ⟨z, rfl⟩ := prefix_of_expandFrom hw he ⟨y, hy⟩
      exact hnot (by simp)
    rw [expandFrom_cons_of_ne htab, piece?_cons (hkeep (by decide) hcomment)
      (hkeep (by decide) hcrlf)]
    split at h
    · cases h
    rw [if_neg ‹_›]
    split at h
    · rw [if_pos ‹_›]
      rw [Option.map_eq_none_iff] at h ⊢
      exact stringBody?_expandFrom hw h _
    rw [if_neg ‹_›]
    split at h
    · cases h
    · rw [Option.map_eq_none_iff] at h ⊢
      exact h

end TypeLens.Lex
