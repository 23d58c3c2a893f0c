import TypeLens.Proofs.Grammar.Positions
import TypeLens.Proofs.Layout.Stream

/-!
Two runs of layout. What comes out depends on the columns of the tokens only where layout reads them,
and on a line end only by what it indents to.
-/

namespace TypeLens.Layout

variable {w w' : Int} {f : Position → Position} {s s' : State} {t u last last' : Token}
  {ts us : List Token}

/-- States that differ in positions and in the tab width by which line ends are measured. -/
structure SameState (w w' : Int) (f : Position → Position) (s s' : State) : Prop where
  base : s'.base = s.base
  blocks : s'.blocks = s.blocks
  depth : s'.depth = s.depth
  pending : s'.pending.map (indentOf w') = s.pending.map (indentOf w)
  expectBlock : s'.expectBlock = s.expectBlock
  last : s'.last.map (Token.relocate f) = s.last.map (Token.relocate f)

/-- The outputs of two runs differ in positions alone, and so do the states after them. -/
structure SameRun (w w' : Int) (f : Position → Position) (r r' : List Token × State) : Prop where
  output : r'.1.map (Token.relocate f) = r.1.map (Token.relocate f)
  state : SameState w w' f r.2 r'.2

/-- Layout asks for the column of the next token, which starts no line. -/
def State.readsColumn (s : State) : Bool := s.pending.isNone && (s.last.isNone || s.expectBlock)

theorem SameState.initial : SameState w w' f {} {} := ⟨rfl, rfl, rfl, rfl, rfl, rfl⟩

theorem SameState.nil (h : SameState w w' f s s') : SameRun w w' f ([], s) ([], s') := ⟨rfl, h⟩

@[simp]
theorem relocate_synthetic (k : Terminal) :
    (synthetic k t).relocate f = synthetic k (t.relocate f) := rfl

theorem closeBlocks_relocate (i : Nat) (blocks : List Nat) :
    closeBlocks i (t.relocate f) blocks =
      (closeBlocks i t blocks).map (List.map (Token.relocate f)) id := by
  induction blocks with
  | nil => rfl
  | cons b bs ih =>
    unfold closeBlocks
    split
    · rw [ih]
      rfl
    · rfl

theorem closeBlocks_same (h : last'.relocate f = last.relocate f) (i : Nat) (blocks : List Nat) :
    (closeBlocks i last' blocks).1.map (Token.relocate f) =
        (closeBlocks i last blocks).1.map (Token.relocate f) ∧
      (closeBlocks i last' blocks).2 = (closeBlocks i last blocks).2 := by
  have heq := closeBlocks_relocate (t := last') (f := f) i blocks
  rw [h, closeBlocks_relocate, Prod.ext_iff] at heq
  exact ⟨heq.1.symm, heq.2.symm⟩

namespace SameState

theorem column (h : SameState w w' f s s') : s'.column = s.column := by
  rw [State.column, State.column, h.base, h.blocks]

/-- Where a line starts the columns agree, and elsewhere they need to only if they are read. -/
theorem columnOf (h : SameState w w' f s s') (hread : s.last.isNone || s.expectBlock)
    (hcol : s.readsColumn → u.region.start.column = t.region.start.column) :
    columnOf w' s'.pending u = columnOf w s.pending t := by
  have hp := h.pending
  cases hn : s.pending with
  | some n =>
    rw [hn] at hp
    obtain ⟨n', hn', hi⟩ := Option.map_eq_some_iff.mp hp
    rw [hn']
    exact hi
  | none =>
    rw [hn] at hp
    rw [Option.map_eq_none_iff.mp hp]
    exact congrArg (· - 1) (hcol (by simp [State.readsColumn, hn, hread]))

theorem begin (h : SameState w w' f s s')
    (hcol : s.readsColumn → u.region.start.column = t.region.start.column) :
    SameState w w' f (begin w s t) (begin w' s' u) := by
  have hl := h.last
  cases hs : s.last with
  | none =>
    rw [hs] at hl
    have hs' : s'.last = none := Option.map_eq_none_iff.mp hl
    simp only [Layout.begin, hs, hs']
    exact ⟨h.columnOf (by simp [hs]) hcol, h.blocks, h.depth, rfl, h.expectBlock, rfl⟩
  | some last =>
    rw [hs] at hl
    obtain ⟨last', hs', -⟩ := Option.map_eq_some_iff.mp hl
    simpa only [Layout.begin, hs, hs'] using h

theorem openBlock (h : SameState w w' f s s')
    (hcol : s.last.isSome → s.readsColumn → u.region.start.column = t.region.start.column) :
    SameRun w w' f (openBlock w s t) (openBlock w' s' u) := by
  have hl := h.last
  cases hs : s.last with
  | none =>
    rw [hs] at hl
    have hs' : s'.last = none := Option.map_eq_none_iff.mp hl
    simpa only [Layout.openBlock, hs, hs'] using h.nil
  | some last =>
    rw [hs] at hl
    obtain ⟨last', hs', hlast⟩ := Option.map_eq_some_iff.mp hl
    cases he : s.expectBlock with
    | false => simpa [Layout.openBlock, hs, hs', he, h.expectBlock] using h.nil
    | true =>
      simp only [Layout.openBlock, hs, hs', he, h.expectBlock, if_true, h.column,
        h.columnOf (by simp [he]) (hcol (by simp [hs]))]
      split
      · exact ⟨by simp [hlast], ⟨h.base, by rw [h.blocks], h.depth, rfl, rfl, congrArg some hlast⟩⟩
      · exact ⟨by simp [hlast], ⟨h.base, h.blocks, h.depth, h.pending, rfl, congrArg some hlast⟩⟩

theorem startLine (h : SameState w w' f s s') :
    SameRun w w' f (startLine w s) (startLine w' s') := by
  have hp := h.pending
  have hl := h.last
  cases hn : s.pending with
  | none =>
    rw [hn] at hp
    have hn' : s'.pending = none := Option.map_eq_none_iff.mp hp
    simpa only [Layout.startLine, hn, hn'] using h.nil
  | some n =>
    rw [hn] at hp
    obtain ⟨n', hn', hi⟩ := Option.map_eq_some_iff.mp hp
    cases hs : s.last with
    | none =>
      rw [hs] at hl
      have hs' : s'.last = none := Option.map_eq_none_iff.mp hl
      simpa only [Layout.startLine, hn, hn', hs, hs'] using h.nil
    | some last =>
      rw [hs] at hl
      obtain ⟨last', hs', hlast⟩ := Option.map_eq_some_iff.mp hl
      obtain ⟨hout, hblocks⟩ := closeBlocks_same hlast (indentOf w n) s.blocks
      simp only [Layout.startLine, hn, hn', hs, hs', hi, h.blocks]
      have closed : SameState w w' f
          { s with pending := none, blocks := (closeBlocks (indentOf w n) last s.blocks).2 }
          { s' with pending := none, blocks := (closeBlocks (indentOf w n) last' s.blocks).2 } :=
        ⟨h.base, hblocks, h.depth, rfl, h.expectBlock, h.last⟩
      rw [hs, hs'] at closed
      refine ⟨?_, closed⟩
      simp [closed.column, hout, hlast, apply_ite (List.map (Token.relocate f))]

theorem shift (h : SameState w w' f s s') (ht : u.relocate f = t.relocate f) :
    SameState w w' f (shift s t) (shift s' u) := by
  have hk := Token.kind_eq_of_relocate_eq ht
  have hlast : (some u).map (Token.relocate f) = (some t).map (Token.relocate f) :=
    congrArg some ht
  obtain ⟨hb, hbs, hd, hp, he, -⟩ := h
  unfold Layout.shift
  rw [hk]
  cases t.kind <;>
    exact ⟨hb, hbs, by simp [hd], hp, by simp [he], hlast⟩

end SameState

/-- A real token, after the top-level column is fixed. -/
theorem step_same (begun : SameState w w' f (begin w s t) (begin w' s' u))
    (ht : u.relocate f = t.relocate f) (hk : t.kind ≠ .newline)
    (hcol : s.last.isSome → s.readsColumn → u.region.start.column = t.region.start.column) :
    SameRun w w' f (step w s t) (step w' s' u) := by
  have hk' : u.kind ≠ .newline := fun hn => hk ((Token.kind_eq_of_relocate_eq ht).symm.trans hn)
  have opened := begun.openBlock (t := t) (u := u) fun hl hr => by
    rw [last_begin] at hl
    obtain ⟨last, hlast⟩ := Option.isSome_iff_exists.mp hl
    exact hcol hl (by simpa only [begin, hlast] using hr)
  have started := opened.state.startLine
  simp only [step, if_neg hk, if_neg hk']
  exact ⟨by simp [opened.output, started.output, ht], started.state.shift ht⟩

namespace SameState

/-- A real token, whose column has to be the same where it is read. -/
theorem step (h : SameState w w' f s s') (ht : u.relocate f = t.relocate f)
    (hk : t.kind ≠ .newline)
    (hcol : s.readsColumn → u.region.start.column = t.region.start.column) :
    SameRun w w' f (step w s t) (step w' s' u) :=
  step_same (h.begin hcol) ht hk fun _ => hcol

theorem finish (h : SameState w w' f s s') :
    (finish s').map (Token.relocate f) = (finish s).map (Token.relocate f) := by
  have hl := h.last
  cases hs : s.last with
  | none =>
    rw [hs] at hl
    simp [Layout.finish, hs, Option.map_eq_none_iff.mp hl]
  | some last =>
    rw [hs] at hl
    obtain ⟨last', hs', hlast⟩ := Option.map_eq_some_iff.mp hl
    simp only [Layout.finish, hs, hs', h.expectBlock, h.blocks]
    cases s.expectBlock <;> simp [hlast]

end SameState

/-! ### Whole runs -/

/-- Two runs put out the same, and the same again when the text ends there. -/
structure SameOutput (w w' : Int) (f : Position → Position) (s s' : State) (ts us : List Token) :
    Prop where
  output : (run w' s' us).1.map (Token.relocate f) = (run w s ts).1.map (Token.relocate f)
  finish : (finish (run w' s' us).2).map (Token.relocate f) =
    (finish (run w s ts).2).map (Token.relocate f)

/-- The state after a line end. -/
def State.newline (s : State) (n : Token) : State :=
  if s.depth = 0 then { s with pending := some n } else s

theorem run_newline_cons (ht : t.kind = .newline) :
    run w s (t :: ts) = run w (s.newline t) ts := by
  simp [run, step, ht, State.newline]

theorem SameState.newline (h : SameState w w' f s s') (hi : indentOf w' u = indentOf w t) :
    SameState w w' f (s.newline t) (s'.newline u) := by
  unfold State.newline
  rw [h.depth]
  split
  · exact ⟨h.base, h.blocks, rfl, congrArg some hi, h.expectBlock, h.last⟩
  · exact h

theorem SameState.step_newline (h : SameState w w' f s s') (ht : t.kind = .newline)
    (hu : u.kind = .newline) (hi : indentOf w' u = indentOf w t) :
    SameRun w w' f (Layout.step w s t) (Layout.step w' s' u) := by
  simp only [Layout.step, if_pos ht, if_pos hu]
  exact ⟨rfl, h.newline hi⟩

namespace SameOutput

theorem nil (h : SameState w w' f s s') : SameOutput w w' f s s' [] [] := ⟨rfl, h.finish⟩

theorem cons (h : SameRun w w' f (step w s t) (step w' s' u))
    (hr : SameOutput w w' f (step w s t).2 (step w' s' u).2 ts us) :
    SameOutput w w' f s s' (t :: ts) (u :: us) :=
  ⟨by simp [run, h.output, hr.output], hr.finish⟩

/-- Line ends put out nothing. -/
theorem of_newline (ht : t.kind = .newline) (hu : u.kind = .newline)
    (hr : SameOutput w w' f (s.newline t) (s'.newline u) ts us) :
    SameOutput w w' f s s' (t :: ts) (u :: us) :=
  ⟨by rw [run_newline_cons ht, run_newline_cons hu, hr.output],
    by rw [run_newline_cons ht, run_newline_cons hu, hr.finish]⟩

theorem newline_right (hu : u.kind = .newline) (h : SameOutput w w' f s (s'.newline u) ts us) :
    SameOutput w w' f s s' ts (u :: us) :=
  ⟨by rw [run_newline_cons hu, h.output], by rw [run_newline_cons hu, h.finish]⟩

theorem process (h : SameOutput w w' f {} {} ts us) :
    (process w' us).map (Token.relocate f) = (process w ts).map (Token.relocate f) := by
  simp [Layout.process, h.output, h.finish]

theorem processOpen (h : SameOutput w w' f {} {} ts us) :
    (processOpen w' us).map (Token.relocate f) = (processOpen w ts).map (Token.relocate f) :=
  h.output

variable (hf : ∀ p : Position, (f p).column = p.column)
include hf

theorem of_relocate_eq (h : SameState w w f s s')
    (hts : us.map (Token.relocate f) = ts.map (Token.relocate f)) : SameOutput w w f s s' ts us := by
  induction ts generalizing us s s' with
  | nil =>
    obtain rfl := List.map_eq_nil_iff.mp hts
    exact nil h
  | cons t ts ih =>
    obtain ⟨u, us, rfl, hu, hus⟩ := List.map_eq_cons_iff.mp hts
    by_cases ht : t.kind = .newline
    · have htext : u.text = t.text := by simpa [Token.relocate] using congrArg Token.text hu
      have hstep := h.step_newline ht ((Token.kind_eq_of_relocate_eq hu).trans ht)
        (by rw [indentOf, indentOf, htext])
      exact cons hstep (ih hstep.state hus)
    · have hcol : u.region.start.column = t.region.start.column := by
        simpa [Token.relocate, Region.relocate, hf] using
          congrArg (fun t : Token => t.region.start.column) hu
      have hstep := h.step hu ht fun _ => hcol
      exact cons hstep (ih hstep.state hus)

/-- A line end before the first token fixes the same top-level column as the token itself, if the
token stands where the line end indents to. -/
theorem of_first_line {n : Token} (hts : us.map (Token.relocate f) = ts.map (Token.relocate f))
    (hhead : ∀ t ∈ ts.head?, t.kind ≠ .newline → t.region.start.column - 1 = indentOf w n) :
    SameOutput w w f {} { pending := some n } ts us := by
  cases ts with
  | nil =>
    obtain rfl := List.map_eq_nil_iff.mp hts
    exact ⟨rfl, rfl⟩
  | cons t ts =>
    obtain ⟨u, us, rfl, hu, hus⟩ := List.map_eq_cons_iff.mp hts
    by_cases ht : t.kind = .newline
    · have htext : u.text = t.text := by simpa [Token.relocate] using congrArg Token.text hu
      have hu' := (Token.kind_eq_of_relocate_eq hu).trans ht
      have hs : SameState w w f { pending := some t } { pending := some u } :=
        SameState.initial.newline (by rw [indentOf, indentOf, htext])
      exact of_newline ht hu' (of_relocate_eq hf hs hus)
    · have begun : SameState w w f (begin w {} t) (begin w { pending := some n } u) :=
        ⟨(hhead t rfl ht).symm, rfl, rfl, rfl, rfl, rfl⟩
      have hstep := step_same begun hu ht (by simp)
      exact cons hstep (of_relocate_eq hf hstep.state hus)

end SameOutput

end TypeLens.Layout
