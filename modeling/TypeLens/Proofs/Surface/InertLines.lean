import TypeLens.Proofs.Layout.Comparison
import TypeLens.Proofs.Lex.Lines
import TypeLens.Proofs.Surface.Spans

/-!
Blank lines and lines of comments change nothing. A text with such lines put in has the same tokens
after layout, up to lines, and what stops its lexing is the same character.
-/

namespace TypeLens.Surface

open Layout TypeLens.Lex

variable {w : Int} {s s' : State} {pos pos' : Position} {b l r x y : List Char}

-- Positions without their lines

theorem dropLine_after_congr (h : dropLine pos' = dropLine pos) (b : List Char) :
    dropLine (pos'.after b) = dropLine (pos.after b) := by
  induction b generalizing pos pos' with
  | nil => exact h
  | cons c b ih =>
    refine ih ?_
    simp only [dropLine, Position.mk.injEq, Position.next] at h ⊢
    split
    · simp
    · exact ⟨h.1, by rw [h.2]⟩

theorem dropLine_after (h : '\n' ∈ b) :
    dropLine (pos.after b) = ⟨1, (lastLine b).length + 1⟩ := by
  obtain ⟨a, c, rfl⟩ := List.append_of_mem h
  have hline : 1 ≤ (pos.after (a ++ '\n' :: c)).line := by
    refine le_trans ?_ (Position.line_le_after ((pos.after a).next '\n') c)  |>.trans_eq ?_
    · simp [Position.next]
    · rw [Position.after_append]
      rfl
  rw [dropLine, Position.column_after _ h]
  simpa using hline

-- Gaps

theorem newline_newline (m n : Token) : (s.newline m).newline n = s.newline n := by
  unfold State.newline
  split <;> simp_all

theorem finish_newline (n : Token) : finish (s.newline n) = finish s := by
  unfold State.newline
  split <;> rfl

/-- What layout makes of a gap: one line end, or nothing more. -/
theorem run_gap (h : Gap r l y) (pos : Position) (s : State) :
    (∃ y' n pos', WithLines false r y' ∧ n.kind = .newline ∧ lastLine n.text.toList = l ∧
        dropLine pos' = ⟨1, l.length + 1⟩ ∧ (pieces y).2 = (pieces y').2 ∧
        run w s (tokensFrom pos (pieces y).1) =
          run w (s.newline n) (tokensFrom pos' (pieces y').1)) ∨
      (r = [] ∧ (pieces y).2 = [] ∧ (run w s (tokensFrom pos (pieces y).1)).1 = [] ∧
        finish (run w s (tokensFrom pos (pieces y).1)).2 = finish s) := by
  induction h generalizing pos s with
  | @last n y h hn hy =>
    refine .inl ⟨y, ⟨.newline, String.ofList n, ⟨pos, pos.after n⟩⟩, pos.after n, hy, rfl, ?_, ?_, ?_, ?_⟩
    · simpa using hn
    · rw [← hn]
      exact dropLine_after (h.lineEnd rfl).1.mem
    · rw [pieces_append h]
    · rw [pieces_append h, tokensFrom, run_newline_cons rfl]
  | done hr => exact .inr ⟨hr, rfl, rfl, rfl⟩
  | @newline n y h hg ih =>
    have hrun : run w s (tokensFrom pos (pieces (n ++ y)).1) =
        run w (s.newline ⟨.newline, String.ofList n, ⟨pos, pos.after n⟩⟩)
          (tokensFrom (pos.after n) (pieces y).1) := by
      rw [pieces_append h, tokensFrom, run_newline_cons rfl]
    have hrest : (pieces (n ++ y)).2 = (pieces y).2 := by rw [pieces_append h]
    rw [hrun, hrest]
    obtain ⟨y', m, pos', hy, hm, hl, hp, hs, hr⟩ | ⟨hr, hs, ho, hf⟩ := ih (pos.after n)
      (s.newline ⟨.newline, String.ofList n, ⟨pos, pos.after n⟩⟩)
    · exact .inl ⟨y', m, pos', hy, hm, hl, hp, hs, by rw [hr, newline_newline]⟩
    · exact .inr ⟨hr, hs, ho, by rw [hf, finish_newline]⟩
  | @comment c y h hg ih =>
    have hrun : run w s (tokensFrom pos (pieces (c ++ y)).1) =
        run w s (tokensFrom (pos.after c) (pieces y).1) := by
      rw [pieces_append h, tokensFrom]
      simp
    have hrest : (pieces (c ++ y)).2 = (pieces y).2 := by rw [pieces_append h]
    rw [hrun, hrest]
    exact ih (pos.after c) s

/-- Lines put in after the first line feed. -/
theorem sameOutput_of_withLines (h : WithLines false x y) (htab : '\t' ∉ x)
    (hs : SameState w w dropLine s s') (hpos : dropLine pos' = dropLine pos) :
    SameOutput w w dropLine s s' (tokensFrom pos (pieces x).1) (tokensFrom pos' (pieces y).1) ∧
      (pieces y).2.head? = (pieces x).2.head? := by
  induction x using pieces_induction generalizing y s s' pos pos' with
  | none x hx =>
    rw [pieces_of_none hx, pieces_of_none (h.piece?_eq_none hx)]
    exact ⟨.nil hs, h.head?_eq.symm⟩
  | some p r hp ih =>
    have htab' : '\t' ∉ r := fun hmem => htab (List.mem_append_right p.text hmem)
    by_cases hk : p.kind = .token .newline
    · obtain ⟨hn, hr⟩ := hp.lineEnd hk
      obtain ⟨kind, n⟩ := p
      cases hk
      rw [pieces_append hp, tokensFrom]
      have hafter : dropLine (pos.after n) = _ := dropLine_after hn.mem
      obtain ⟨y', m, pos'', hy, hm, hl, hp', hrest, hrun⟩ | ⟨rfl, hrest, hout, hfin⟩ :=
        run_gap (w := w) (h.gap_of_lineEnd hn hr htab) pos' s'
      · have hindent : indentOf w m = indentOf w ⟨.newline, String.ofList n, ⟨pos, pos.after n⟩⟩ := by
          simp [indentOf, hl]
        obtain ⟨hsame, hstop⟩ := ih hy htab' (hs.newline hindent) (hp'.trans hafter.symm)
        refine ⟨⟨?_, ?_⟩, hrest ▸ hstop⟩
        · rw [hrun, run_newline_cons rfl, hsame.output]
        · rw [hrun, run_newline_cons rfl, hsame.finish]
      · rw [hrest, pieces_nil, tokensFrom]
        refine ⟨⟨?_, ?_⟩, rfl⟩
        · rw [hout, run_newline_cons rfl]
          rfl
        · rw [hfin, run_newline_cons rfl, Layout.run, finish_newline, hs.finish]
    · obtain ⟨y', rfl, h'⟩ := h.of_append (hp.not_mem hk)
      rw [pieces_append hp, pieces_append (hp.congr hk h'.head?_eq)]
      have hnext := dropLine_after_congr hpos p.text
      obtain ⟨kind, text⟩ := p
      cases kind with
      | blank | comment => exact ih h' htab' hs hnext
      | token k =>
        let t : Token := ⟨k, String.ofList text, ⟨pos, pos.after text⟩⟩
        let u : Token := ⟨k, String.ofList text, ⟨pos', pos'.after text⟩⟩
        have htu : u.relocate dropLine = t.relocate dropLine := by
          simp [t, u, Token.relocate, Region.relocate, hpos, hnext]
        have hcol : pos'.column = pos.column := (Position.mk.inj hpos).2
        have hstep := hs.step htu (fun hn => hk (congrArg PieceKind.token hn)) fun _ => hcol
        obtain ⟨hsame, hstop⟩ := ih h' htab' hstep.state hnext
        exact ⟨.cons hstep hsame, hstop⟩

/-! ### The start of the text -/

/-- Spaces, and then no blank. -/
def StartsPlainly (x : List Char) : Prop :=
  ∃ n r, x = List.replicate n ' ' ++ r ∧ ∀ c ∈ r.head?, isSpace c = false

theorem StartsPlainly.cons {c : Char} (h : c = ' ' → StartsPlainly x) (htab : c ≠ '\t')
    (hfeed : c ≠ '\x0c') : StartsPlainly (c :: x) := by
  by_cases hc : c = ' '
  · obtain ⟨n, r, rfl, hr⟩ := h hc
    exact ⟨n + 1, r, by rw [hc]; rfl, hr⟩
  · exact ⟨0, c :: x, rfl, by simpa [isSpace, hc] using ⟨htab, hfeed⟩⟩

theorem startsPlainly_of_plain (h : ∀ c ∈ x, c ≠ '\t' ∧ c ≠ '\x0c') : StartsPlainly x := by
  induction x with
  | nil => exact ⟨0, [], rfl, by simp⟩
  | cons c x ih =>
    obtain ⟨htab, hfeed⟩ := h c List.mem_cons_self
    exact .cons (fun _ => ih fun d hd => h d (List.mem_cons_of_mem c hd)) htab hfeed

theorem startsPlainly_inert (h : Inert l) (hy : ∀ c ∈ y.head?, c = '\n') :
    StartsPlainly (l ++ y) := by
  cases h with
  | spaces n => exact ⟨n, y, rfl, fun c hc => by rw [hy c hc]; decide⟩
  | comment n => exact ⟨n, _, List.append_assoc .., by simp; decide⟩

theorem startsPlainly_of_withLines {start : Bool} (h : WithLines start x y)
    (hx : ∀ c ∈ x, c ≠ '\t' ∧ c ≠ '\x0c') : StartsPlainly y := by
  induction h with
  | nil => exact ⟨0, [], rfl, by simp⟩
  | @char _ c x y h ih =>
    obtain ⟨htab, hfeed⟩ := hx c List.mem_cons_self
    exact .cons (fun _ => ih fun d hd => hx d (List.mem_cons_of_mem c hd)) htab hfeed
  | line hl => exact startsPlainly_inert hl (by simp)
  | last hl => simpa using startsPlainly_inert (y := []) hl (by simp)

theorem isSpace_of_blank {p : Piece} (h : IsPiece p r) (hk : p.kind = .blank) :
    ∃ c ∈ p.text.head?, isSpace c := by
  cases h with
  | comment | newline | string | bracket => cases hk
  | @run c word _ inRun kind hc =>
    cases class_of_class? hc with
    | blank h => exact ⟨c, rfl, h⟩
    | _ => cases hk

/-- A comment ends with its line. -/
theorem newline_of_comment {p : Piece} (h : IsPiece p r) (hk : p.kind = .comment) :
    ∀ c ∈ r.head?, c = '\n' := by
  cases h with
  | comment _ hr => exact hr
  | newline | string | bracket => cases hk
  | @run c word _ inRun kind hc =>
    cases class_of_class? hc <;> cases hk

/-- The first token stands at the start, unless a comment is before it. -/
theorem start_of_mem_head? (hr : ∀ c ∈ r.head?, isSpace c = false) :
    ∀ t ∈ (tokensFrom pos (pieces r).1).head?, t.kind ≠ .newline → t.region.start = pos := by
  intro t ht hk
  cases hp : piece? r with
  | none =>
    rw [pieces_of_none hp] at ht
    cases ht
  | some x =>
    obtain ⟨p, r'⟩ := x
    obtain ⟨rfl, hpiece⟩ := piece?_eq_some_iff.mp hp
    rw [pieces_append hpiece] at ht
    cases hkind : p.kind with
    | blank =>
      obtain ⟨c, hc, hspace⟩ := isSpace_of_blank hpiece hkind
      rw [hr c (by rw [List.head?_append, Option.mem_def.mp hc]; rfl)] at hspace
      cases hspace
    | comment =>
      have hline := newline_of_comment hpiece hkind
      obtain ⟨kind, text⟩ := p
      cases hkind
      cases r' with
      | nil => cases ht
      | cons c r' =>
        obtain rfl := hline c rfl
        have hpieces := pieces_append (isPiece_breaks (x := '\n' :: r') (.inl (by simp)))
        rw [breaks_append] at hpieces
        rw [tokensFrom, hpieces] at ht
        · cases ht
          exact absurd rfl hk
        · simp
    | token k =>
      obtain ⟨kind, text⟩ := p
      cases hkind
      cases ht
      rfl

theorem tokensFrom_congr (h : dropLine pos' = dropLine pos) (ps : List Piece) :
    (tokensFrom pos' ps).map (Token.relocate dropLine) =
      (tokensFrom pos ps).map (Token.relocate dropLine) := by
  induction ps generalizing pos pos' with
  | nil => rfl
  | cons p ps ih =>
    obtain ⟨kind, text⟩ := p
    have hnext := dropLine_after_congr h text
    cases kind with
    | blank | comment => exact ih hnext
    | token k => simp [tokensFrom, ih hnext, Token.relocate, Region.relocate, h, hnext]

theorem pieces_spaces (n : Nat) (hr : ∀ c ∈ r.head?, isSpace c = false) :
    (pieces (List.replicate n ' ' ++ r)).2 = (pieces r).2 ∧
      ∀ pos, tokensFrom pos (pieces (List.replicate n ' ' ++ r)).1 =
        tokensFrom (pos.after (List.replicate n ' ')) (pieces r).1 := by
  cases n with
  | zero => exact ⟨rfl, fun _ => rfl⟩
  | succ n =>
    have hblank : IsPiece ⟨.blank, ' ' :: List.replicate n ' '⟩ r :=
      @IsPiece.run ' ' _ _ isSpace (fun _ => .blank) rfl
        (fun d hd => by rw [List.eq_of_mem_replicate hd]; decide) hr (by simp)
    have hpieces := pieces_append hblank
    rw [List.replicate_succ]
    exact ⟨by rw [hpieces], fun pos => by rw [hpieces, tokensFrom]; simp⟩

/-- A line end at the start of the text. -/
theorem sameOutput_newline_cons (hx : StartsPlainly x) :
    SameOutput w w dropLine {} {} (tokensFrom .first (pieces x).1)
        (tokensFrom .first (pieces ('\n' :: x)).1) ∧
      (pieces ('\n' :: x)).2 = (pieces x).2 := by
  obtain ⟨n, r, rfl, hr⟩ := hx
  obtain ⟨hrest, htokens⟩ := pieces_spaces n hr
  have hb : LineEnd ('\n' :: List.replicate n ' ') := LineEnd.newline.append (isBreak_replicate n)
  rw [hrest, htokens, ← List.cons_append]
  have hafter : dropLine (Position.first.after ('\n' :: List.replicate n ' ')) =
      dropLine (Position.first.after (List.replicate n ' ')) := by
    rw [dropLine_after (by simp), Position.after_of_not_mem _ (by simp)]
    simp [dropLine, Position.first, lastLine, Nat.add_comm]
  by_cases hline : ['\n'] <+: r ∨ ['\r', '\n'] <+: r
  · -- the line end grows at its front
    obtain ⟨m, r, rfl, hm⟩ : ∃ m r', r = m ++ r' ∧ IsPiece ⟨.token .newline, m⟩ r' :=
      ⟨_, _, (breaks_append r).symm, isPiece_breaks hline⟩
    obtain ⟨hend, hbreaks⟩ := hm.lineEnd rfl
    rw [pieces_append hm, ← List.append_assoc]
    rw [pieces_append ((hb.append hend.isBreak).isPiece hbreaks)]
    refine ⟨.of_newline rfl rfl (.of_relocate_eq (f := dropLine) (fun _ => rfl)
      (SameState.initial.newline ?_) (tokensFrom_congr ?_ _)), rfl⟩
    · rw [indentOf, indentOf, String.toList_ofList, String.toList_ofList,
        lastLine_append_of_mem hend.mem]
    · rw [dropLine_after hend.mem, dropLine_after (List.mem_append_right _ hend.mem),
        lastLine_append_of_mem hend.mem]
  · have hbreaks : breaks r = ([], r) := by
      cases r with
      | nil => rfl
      | cons c r =>
        have hc := hr c rfl
        exact breaks_of_ne (by rintro rfl; cases hc) (by rintro rfl; cases hc) hline
    rw [pieces_append (hb.isPiece hbreaks)]
    refine ⟨.newline_right rfl (.of_first_line (f := dropLine) (fun _ => rfl) (tokensFrom_congr hafter _) ?_), rfl⟩
    intro t ht hk
    rw [start_of_mem_head? hr t ht hk, Position.after_of_not_mem _ (by simp)]
    rw [Indents.indentOf_eq (k := n) (by simp [Indents, lastLine])]
    simp [Position.first]

/-! ### Whole texts -/

theorem failure_lex (x : List Char) : (lex x).failure.map Prod.fst = (pieces x).2.head? := by
  simp [lex, Function.comp_def]

theorem isSome_failure_lex (x : List Char) :
    (lex x).failure.isSome = (pieces x).2.head?.isSome := by
  simp [lex]

theorem layoutTokens_of_sameOutput {w' : Int} {f : Position → Position}
    (h : SameOutput w w' f {} {} (lex x).tokens (lex y).tokens)
    (hstop : (pieces y).2.head? = (pieces x).2.head?) :
    (layoutTokens w' (lex y)).map (Token.relocate f) =
      (layoutTokens w (lex x)).map (Token.relocate f) := by
  simp only [layoutTokens, isSome_failure_lex, hstop]
  split
  · exact h.processOpen
  · exact h.process

/-- Lines of spaces, with or without a comment, are inert wherever a line can start. In a text
without tabs and form feeds, the tokens that the grammar sees keep their kinds, texts and columns,
what stops the lexing is the same character, and so the module is the same but for lines. -/
theorem lines_inert (w : Int) {source target : String}
    (hplain : ∀ c ∈ source.toList, c ≠ '\t' ∧ c ≠ '\x0c')
    (h : WithLines true source.toList target.toList) :
    ((layoutTokens w (lex target.toList)).map fun t => (t.kind, t.text)) =
        ((layoutTokens w (lex source.toList)).map fun t => (t.kind, t.text)) ∧
      (lex target.toList).failure.map Prod.fst = (lex source.toList).failure.map Prod.fst ∧
      (isMeasurable w → ∀ file,
        (parseModule w file target).toOption.map (Module.mapSpans dropLines) =
          (parseModule w file source).toOption.map (Module.mapSpans dropLines)) := by
  obtain ⟨hsource, hsource'⟩ := sameOutput_newline_cons (w := w) (startsPlainly_of_plain hplain)
  obtain ⟨htarget, htarget'⟩ :=
    sameOutput_newline_cons (w := w) (startsPlainly_of_withLines h hplain)
  have hlines : WithLines false ('\n' :: source.toList) ('\n' :: target.toList) := .char h
  have htab : '\t' ∉ '\n' :: source.toList := fun hmem => (hplain '\t' (by simpa using hmem)).1 rfl
  obtain ⟨hsame, hstop⟩ := sameOutput_of_withLines hlines htab (SameState.initial (w := w))
    (rfl : dropLine .first = dropLine .first)
  have hstop' : (pieces target.toList).2.head? = (pieces source.toList).2.head? := by
    rw [← htarget', hstop, hsource']
  have htokens : (layoutTokens w (lex target.toList)).map (Token.relocate dropLine) =
      (layoutTokens w (lex source.toList)).map (Token.relocate dropLine) := by
    rw [← layoutTokens_of_sameOutput htarget (by rw [htarget']),
      layoutTokens_of_sameOutput hsame hstop, layoutTokens_of_sameOutput hsource (by rw [hsource'])]
  have hfail : (lex target.toList).failure.map Prod.fst = (lex source.toList).failure.map Prod.fst := by
    rw [failure_lex, failure_lex, hstop']
  refine ⟨?_, hfail, fun hw file => ?_⟩
  · simpa [Function.comp_def, Token.relocate] using
      congrArg (List.map fun t => (t.kind, t.text)) htokens
  · refine SameTokens.parseModule (forgets_dropLine file) ⟨?_, htokens⟩ hw hw
    simpa using congrArg Option.isSome hfail

/-- A definition over two lines. -/
def plainText : String := "f x =\n  g x\n"

/-- The same with a comment at the start, a line of spaces and an indented comment within the
definition, and an unfinished line at the end. -/
def spacedText : String := "-- f\nf x =\n      \n -- not g\n  g x\n --"

theorem withLines_spacedText : WithLines true plainText.toList spacedText.toList := by
  have hend : WithLines true [] " --".toList := .last (.comment 1 (List.forall_mem_nil _))
  have hbody : WithLines true "  g x\n".toList "  g x\n --".toList := hend.after "  g x".toList
  have hnote : Inert " -- not g".toList := @Inert.comment 1 " not g".toList (by simp)
  have hrest := WithLines.line (.spaces 6) (.line hnote hbody)
  exact .line (@Inert.comment 0 " f".toList (by simp)) (hrest.after "f x =".toList)

theorem lines_inert_spacedText :
    ((layoutTokens 8 (lex spacedText.toList)).map fun t => (t.kind, t.text)) =
        [(.varid, "f"), (.varid, "x"), (.equals, "="), (.varid, "g"), (.varid, "x")] ∧
      (lex spacedText.toList).failure = none ∧
      (parseModule 8 none spacedText).toOption.map (Module.mapSpans dropLines) =
        (parseModule 8 none plainText).toOption.map (Module.mapSpans dropLines) := by
  obtain ⟨htokens, hfail, hparse⟩ := lines_inert 8 (by simp [plainText]) withLines_spacedText
  refine ⟨htokens.trans (by decide +kernel), ?_, hparse (by decide) none⟩
  rw [show (lex plainText.toList).failure = none by decide +kernel] at hfail
  simpa using hfail

end TypeLens.Surface
