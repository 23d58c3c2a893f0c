import TypeLens.Proofs.Lex.Tabs
import TypeLens.Proofs.Surface.InertLines

/-!
What tabs mean. Where layout measures the indentation of a line, tabs are as wide as their stops say.
The column of a token that starts no line counts characters instead; a text and the same with its
tabs expanded are the same module as long as the two agree wherever layout reads such a column.
-/

namespace TypeLens.Surface

open Layout TypeLens.Lex

variable {w : Nat} {w' : Int} {x : List Char}

/-- All tabs stand outside of strings and comments. -/
def TabsOutside (source : String) : Prop :=
  ∀ p ∈ (pieces source.toList).1, p.kind = .comment ∨ p.kind = .token .string → '\t' ∉ p.text

/-- Layout sees more of a piece than a line end. -/
def isReal : PieceKind → Bool
  | .token k => k ≠ .newline
  | _ => false

/-- Where layout reads the column of a token that starts no line, what stands before it on its line
is as long as with its tabs expanded. -/
def ColumnsAgree (w : Nat) (source : String) : Prop :=
  let ps := (pieces source.toList).1
  ∀ i, (h : i < ps.length) → isReal ps[i].kind →
    (run w {} (tokensFrom .first (ps.take i))).2.readsColumn →
    (lastLine (expandTabs w ((ps.take i).flatMap (·.text)))).length =
      (lastLine ((ps.take i).flatMap (·.text))).length

instance (source : String) : Decidable (TabsOutside source) :=
  inferInstanceAs (Decidable (∀ p ∈ (pieces source.toList).1, _ → '\t' ∉ p.text))

instance (w : Nat) (source : String) : Decidable (ColumnsAgree w source) :=
  inferInstanceAs (Decidable (∀ i, (h : i < (pieces source.toList).1.length) → _ → _ → _ = _))

theorem ColumnsAgree.split {source : String} (h : ColumnsAgree w source) {before after : List Piece}
    {p : Piece} (hx : (pieces source.toList).1 = before ++ p :: after) (hp : isReal p.kind)
    (hread : (run w {} (tokensFrom .first before)).2.readsColumn) :
    (lastLine (expandTabs w (before.flatMap (·.text)))).length =
      (lastLine (before.flatMap (·.text))).length := by
  have := h before.length (by simp [hx])
  simp only [hx, List.getElem_append_right (le_refl _), Nat.sub_self, List.getElem_cons_zero,
    List.take_left'] at this
  exact this hp hread

/-- Columns count the characters of the line. -/
theorem column_after_first (cs : List Char) :
    (Position.first.after cs).column = (lastLine cs).length + 1 := by
  by_cases h : '\n' ∈ cs
  · exact Position.column_after _ h
  · rw [Position.after_of_not_mem _ h, lastLine_of_not_mem h]
    exact Nat.add_comm _ _

theorem indentOf_expandFrom (hw : 0 < w) {n : List Char} (hn : '\n' ∈ n) (w' : Int) (r r' : Region)
    (col : Nat) :
    indentOf w' ⟨.newline, String.ofList (expandFrom w col n), r'⟩ =
      indentOf w ⟨.newline, String.ofList n, r⟩ := by
  rw [indentOf, indentOf, String.toList_ofList, String.toList_ofList, lastLine_expandFrom hn,
    expandTabs, indentWidth_of_not_mem w' tab_not_mem_expandFrom, indentWidth_eq hw (not_mem_lastLine n),
    expandTabs]

theorem state_append (w' : Int) (before : List Piece) {text : List Char}
    (htext : before.flatMap (·.text) = text) (p : Piece) :
    (run w' {} (tokensFrom .first (before ++ [p]))).2 =
      (run w' (run w' {} (tokensFrom .first before)).2
        (tokensFrom (Position.first.after text) [p])).2 := by
  rw [tokensFrom_append, htext, Layout.run_append]

theorem sameOutput_expandTabs (hw : 0 < w) {source : String} (htabs : TabsOutside source)
    (hcolumns : ColumnsAgree w source) {before : List Piece} {text : List Char} {s' : State}
    (htext : before.flatMap (·.text) = text)
    (hx : (pieces source.toList).1 = before ++ (pieces x).1)
    (hs : SameState w w' (fun _ => .first) (run w {} (tokensFrom .first before)).2 s') :
    SameOutput w w' (fun _ => .first) (run w {} (tokensFrom .first before)).2 s'
        (tokensFrom (Position.first.after text) (pieces x).1)
        (tokensFrom (Position.first.after (expandTabs w text))
          (pieces (expandFrom w (columnAfter w 0 text) x)).1) ∧
      (pieces (expandFrom w (columnAfter w 0 text) x)).2.head? = (pieces x).2.head? := by
  induction x using pieces_induction generalizing before text s' with
  | none x hnone =>
    rw [pieces_of_none hnone, pieces_of_none (piece?_expandFrom hw hnone _)]
    exact ⟨.nil hs, head?_expandFrom_of_ne hw (ne_tab_of_piece?_eq_none hnone)⟩
  | some p r hp ih =>
    rw [pieces_append hp] at hx ⊢
    have htab := htabs p (by simp [hx])
    have hexpanded := pieces_append (hp.expand hw htab (columnAfter w 0 text))
    have hafter : columnAfter w (columnAfter w 0 text) p.text = columnAfter w 0 (text ++ p.text) :=
      List.foldl_append.symm
    have hposition : (Position.first.after (expandTabs w text)).after
        (expandFrom w (columnAfter w 0 text) p.text) =
          Position.first.after (expandTabs w (text ++ p.text)) := by
      rw [← Position.after_append, expandTabs, expandTabs, expandFrom_append]
    rw [expandFrom_append, hexpanded, hafter]
    have hnext : (before ++ [p]).flatMap (·.text) = text ++ p.text := by simp [htext]
    have hrest : (pieces source.toList).1 = before ++ [p] ++ (pieces r).1 := by simp [hx]
    have hstate := state_append w before htext p
    have step {s'' : State} (hs' : SameState w w' (fun _ => .first)
        (run w (run w {} (tokensFrom .first before)).2
          (tokensFrom (Position.first.after text) [p])).2 s'') :=
      ih hnext hrest (hstate ▸ hs')
    rw [hstate, Position.after_append, ← hposition] at step
    obtain ⟨kind, ptext⟩ := p
    cases kind with
    | blank | comment => exact step hs
    | token k =>
      let t : Token := ⟨k, String.ofList ptext, ⟨Position.first.after text,
        (Position.first.after text).after ptext⟩⟩
      let u : Token := ⟨k, String.ofList (expandFrom w (columnAfter w 0 text) ptext),
        ⟨Position.first.after (expandTabs w text), (Position.first.after (expandTabs w text)).after
          (expandFrom w (columnAfter w 0 text) ptext)⟩⟩
      have hstep : SameRun w w' (fun _ => .first)
          (Layout.step w (run w {} (tokensFrom .first before)).2 t) (Layout.step w' s' u) := by
        by_cases hk : k = .newline
        · subst k
          exact hs.step_newline rfl rfl (indentOf_expandFrom hw (hp.lineEnd rfl).1.mem w' _ _ _)
        · have hsame : expandFrom w (columnAfter w 0 text) ptext = ptext :=
            expandFrom_of_not_mem (hp.tab_not_mem htab (by simp) (by simpa using hk))
          refine hs.step (by simp [t, u, Token.relocate, Region.relocate, hsame]) hk fun hread => ?_
          have hcolumn := hcolumns.split hx (by simpa [isReal] using hk) hread
          rw [htext] at hcolumn
          simp only [t, u, column_after_first, hcolumn]
      obtain ⟨hsame, hstop⟩ := step hstep.state
      exact ⟨.cons hstep hsame, hstop⟩

/-- A text whose tabs lie outside of strings and comments and the text with its tabs expanded both
fail, or are the same module but for spans, provided that every column layout reads of a token that
starts no line is the same with tab stops. -/
theorem parseModule_expandTabs (file : Option String) (hw : 0 < w) (hm : isMeasurable w)
    (hm' : isMeasurable w') {source : String} (htabs : TabsOutside source)
    (hcolumns : ColumnsAgree w source) :
    (parseModule w' file (String.ofList (expandTabs w source.toList))).toOption.map
        (Module.mapSpans fun _ => .unknown) =
      (parseModule w file source).toOption.map (Module.mapSpans fun _ => .unknown) := by
  have hstart : SameState w w' (fun _ => .first) (run w {} (tokensFrom .first [])).2 {} := .initial
  obtain ⟨hsame, hstop⟩ := sameOutput_expandTabs hw htabs hcolumns rfl (List.nil_append _).symm hstart
  have htokens := layoutTokens_of_sameOutput hsame hstop
  refine SameTokens.parseModule (forgets_all file) ⟨?_, ?_⟩ hm hm'
  · rw [String.toList_ofList, isSome_failure_lex, isSome_failure_lex]
    exact congrArg Option.isSome hstop
  · rw [String.toList_ofList]
    exact htokens

/-- A class whose members are indented by tabs. -/
def tabbedClass : String := "class C a where\n\tf :: a\n    g ::\ta\n"

theorem parseModule_tabbedClass :
    TabsOutside tabbedClass ∧ ColumnsAgree 4 tabbedClass ∧
      (parseModule 4 none tabbedClass).toOption.isSome ∧
      (parseModule 8 none (String.ofList (expandTabs 4 tabbedClass.toList))).toOption.map
          (Module.mapSpans fun _ => .unknown) =
        (parseModule 4 none tabbedClass).toOption.map (Module.mapSpans fun _ => .unknown) := by
  have htabs : TabsOutside tabbedClass := by decide +kernel
  have hcolumns : ColumnsAgree 4 tabbedClass := by decide +kernel
  exact ⟨htabs, hcolumns, by decide +kernel,
    parseModule_expandTabs none (by decide) (by decide) (by decide) htabs hcolumns⟩

/-- A tab before the first token, and a second line that stands where the tab stop is. -/
def tabbedStart : String := "\tx = 1\n        y = 2"

theorem parseModule_tabbedStart :
    TabsOutside tabbedStart ∧ (parseModule 8 none tabbedStart).toOption.isSome = false ∧
      (parseModule 8 none (String.ofList (expandTabs 8 tabbedStart.toList))).toOption.isSome := by
  decide +kernel

end TypeLens.Surface
