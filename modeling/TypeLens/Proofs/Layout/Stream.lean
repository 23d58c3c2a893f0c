import TypeLens.Proofs.Layout.Blocks

/-!
Layout of any stream of tokens, however malformed. Real tokens are neither lost nor repeated, the
limits of blocks are balanced, the columns of open blocks increase, and items are separated only
outside of brackets and after a real token.
-/

namespace TypeLens.Layout

/-- The kinds that layout alone makes. -/
def isSynthetic : Terminal → Bool
  | .itemSep | .blockOpen | .blockClose => true
  | _ => false

/-- The open blocks after a token, unless it closes a block that is not open. -/
def nest (blocks : Nat) (t : Token) : Option Nat :=
  match t.kind, blocks with
  | .blockOpen, n => some (n + 1)
  | .blockClose, 0 => none
  | .blockClose, n + 1 => some n
  | _, n => some n

/-- The columns of the open blocks, innermost first. -/
def State.columns (s : State) : List Nat := s.blocks ++ [s.base]

/-- A separator stands outside of brackets and has a real token before it. -/
def SepsPlaced (out : List Token) : Prop :=
  ∀ before sep after, out = before ++ sep :: after → sep.kind = .itemSep →
    before.foldl bracketsAfter 0 = 0 ∧ ∃ t ∈ before, isSynthetic t.kind = false

/-- What the state says of the tokens read so far and of those put out for them. -/
structure Emitted (read : List Token) (s : State) (out : List Token) : Prop where
  real : (out.filter fun t => !isSynthetic t.kind) = read.filter fun t => t.kind ≠ .newline
  nested : out.foldlM nest 0 = some s.blocks.length
  depth : out.foldl bracketsAfter 0 = s.depth
  seps : SepsPlaced out
  columns : s.columns.Pairwise (· > ·)
  pending : s.pending.isSome → s.depth = 0
  first : s.last = none → s.blocks = [] ∧ s.expectBlock = false
  last : s.last.isSome → ∃ t ∈ out, isSynthetic t.kind = false

variable (tabWidth : Int) {s : State} {t last : Token} {ts read out new : List Token}

theorem bracketsAfter_of_isSynthetic (n : Nat) (h : isSynthetic t.kind = true) :
    bracketsAfter n t = n := by
  unfold bracketsAfter
  cases hk : t.kind <;> simp_all [isSynthetic]

theorem foldl_bracketsAfter_of_isSynthetic (n : Nat)
    (h : ∀ t ∈ new, isSynthetic t.kind = true) : new.foldl bracketsAfter n = n := by
  induction new with
  | nil => rfl
  | cons t new ih =>
    rw [List.foldl_cons, bracketsAfter_of_isSynthetic n (h t List.mem_cons_self)]
    exact ih fun u hu => h u (List.mem_cons_of_mem t hu)

theorem nest_of_not_isSynthetic {n : Nat} (h : isSynthetic t.kind = false) : nest n t = some n := by
  unfold nest
  cases hk : t.kind <;> simp_all [isSynthetic]

theorem foldlM_nest_closes (last : Token) (n : Nat) (ended : List Nat) :
    (ended.map fun _ => synthetic .blockClose last).foldlM nest (ended.length + n) = some n := by
  induction ended with
  | nil => simp
  | cons b ended ih =>
    rw [List.map_cons, List.foldlM_cons, List.length_cons,
      show ended.length + 1 + n = (ended.length + n) + 1 by omega]
    exact ih

theorem SepsPlaced.append (h : SepsPlaced out)
    (hn : ∀ before sep after, new = before ++ sep :: after → sep.kind = .itemSep →
      (out ++ before).foldl bracketsAfter 0 = 0 ∧
        ∃ t ∈ out ++ before, isSynthetic t.kind = false) :
    SepsPlaced (out ++ new) := by
  intro before sep after he hs
  rcases List.append_eq_append_iff.mp he with ⟨mid, rfl, hnew⟩ | ⟨mid, rfl, hmid⟩
  · exact hn mid sep after hnew hs
  · cases mid with
    | nil =>
      rw [List.nil_append] at hmid
      simpa using hn [] sep after hmid.symm hs
    | cons u mid =>
      obtain ⟨rfl, -⟩ := List.cons.inj hmid
      exact h before _ mid rfl hs

theorem SepsPlaced.append_of_ne (h : SepsPlaced out) (hn : ∀ t ∈ new, t.kind ≠ .itemSep) :
    SepsPlaced (out ++ new) := by
  apply h.append
  rintro before sep after rfl hs
  exact absurd hs (hn sep (by simp))

/-! ### One token -/

namespace Emitted

/-- Synthetic tokens change nothing but the open blocks. -/
theorem append_synthetic {s' : State} (h : Emitted read s out)
    (hn : ∀ t ∈ new, isSynthetic t.kind = true)
    (hb : new.foldlM nest s.blocks.length = some s'.blocks.length)
    (hs : SepsPlaced (out ++ new)) (hc : s'.columns.Pairwise (· > ·))
    (hd : s'.depth = s.depth) (hl : s'.last = s.last)
    (hp : s'.pending.isSome → s.pending.isSome)
    (hf : s.last = none → s'.blocks = [] ∧ s'.expectBlock = false) :
    Emitted read s' (out ++ new) where
  real := by
    have none : new.filter (fun t => !isSynthetic t.kind) = [] := by
      simpa [List.filter_eq_nil_iff] using hn
    rw [List.filter_append, none, List.append_nil, h.real]
  nested := by
    rw [List.foldlM_append, h.nested]
    exact hb
  depth := by rw [List.foldl_append, foldl_bracketsAfter_of_isSynthetic _ hn, h.depth, hd]
  seps := hs
  columns := hc
  pending hp' := by rw [hd, h.pending (hp hp')]
  first hl' := hf (hl ▸ hl')
  last hl' := by
    obtain ⟨t, ht, hr⟩ := h.last (hl ▸ hl')
    exact ⟨t, List.mem_append_left new ht, hr⟩

theorem empty : Emitted [] {} [] where
  real := rfl
  nested := rfl
  depth := rfl
  seps := by
    intro before sep after he
    simp at he
  columns := by simp [State.columns]
  pending := by simp
  first _ := ⟨rfl, rfl⟩
  last := by simp

theorem newline (h : Emitted read s out) (ht : t.kind = .newline) :
    Emitted (read ++ [t]) (step tabWidth s t).2 (out ++ (step tabWidth s t).1) := by
  have same : (read ++ [t]).filter (fun t => t.kind ≠ .newline) =
      read.filter fun t => t.kind ≠ .newline := by simp [ht]
  simp only [step, if_pos ht, List.append_nil]
  split
  · exact { h with real := h.real.trans same.symm, pending := fun _ => ‹s.depth = 0› }
  · exact { h with real := h.real.trans same.symm }

theorem begin (h : Emitted read s out) : Emitted read (begin tabWidth s t) out := by
  unfold Layout.begin
  split
  · have hb : s.blocks = [] := (h.first ‹_›).1
    exact { h with
      columns := by simp [State.columns, hb]
      pending := by simp }
  · exact h

/-- A deeper block can be opened. -/
theorem columns_push {k : Nat} (h : s.columns.Pairwise (· > ·)) (hk : s.column < k) :
    ({ s with blocks := k :: s.blocks } : State).columns.Pairwise (· > ·) := by
  refine List.pairwise_cons.mpr ⟨fun c hc => ?_, h⟩
  change c ∈ s.columns at hc
  -- the innermost column is the largest one
  cases hb : s.blocks with
  | nil => simp_all [State.column, State.columns]
  | cons b bs =>
    simp only [State.columns, State.column, hb, List.cons_append, List.pairwise_cons,
      List.head?_cons, Option.getD_some] at h hk hc
    rcases List.mem_cons.mp hc with rfl | hc
    · exact hk
    · exact Nat.lt_trans (h.1 c hc) hk

theorem openBlock (h : Emitted read s out) :
    Emitted read (openBlock tabWidth s t).2 (out ++ (openBlock tabWidth s t).1) := by
  unfold Layout.openBlock
  split
  · rename_i last hl
    have hf : s.last ≠ none := by simp [hl]
    split
    · dsimp only
      split
      · exact h.append_synthetic (by simp [synthetic, isSynthetic]) (by simp [nest, synthetic])
          (h.seps.append_of_ne (by simp [synthetic])) (columns_push h.columns ‹_›) rfl rfl
          (by simp) fun hn => absurd hn hf
      · exact h.append_synthetic (by simp [synthetic, isSynthetic]) (by simp [nest, synthetic])
          (h.seps.append_of_ne (by simp [synthetic])) h.columns rfl rfl id
          fun hn => absurd hn hf
    · simpa using h
  · simpa using h

/-- The blocks that close are innermost ones. -/
theorem closeBlocks_eq (k : Nat) (last : Token) (blocks : List Nat) :
    ∃ ended, blocks = ended ++ (closeBlocks k last blocks).2 ∧
      (closeBlocks k last blocks).1 = ended.map fun _ => synthetic .blockClose last := by
  induction blocks with
  | nil => exact ⟨[], rfl, rfl⟩
  | cons b bs ih =>
    obtain ⟨ended, hb, ho⟩ := ih
    unfold closeBlocks
    split
    · refine ⟨b :: ended, ?_, ?_⟩
      · simpa using hb
      · simp [ho]
    · exact ⟨[], rfl, rfl⟩

theorem startLine (h : Emitted read s out) :
    Emitted read (startLine tabWidth s).2 (out ++ (startLine tabWidth s).1) := by
  unfold Layout.startLine
  split
  · rename_i n last hp hl
    have hf : s.last ≠ none := by simp [hl]
    obtain ⟨ended, hb, ho⟩ := closeBlocks_eq (indentOf tabWidth n) last s.blocks
    simp only [ho]
    generalize (closeBlocks (indentOf tabWidth n) last s.blocks).2 = blocks at hb ⊢
    have outer : ({ s with pending := none, blocks } : State).columns.Pairwise (· > ·) := by
      refine h.columns.sublist ?_
      simp [State.columns, hb]
    have closed : Emitted read { s with pending := none, blocks }
        (out ++ ended.map fun _ => synthetic .blockClose last) := by
      refine h.append_synthetic (by simp [synthetic, isSynthetic]) ?_
        (h.seps.append_of_ne (by simp [synthetic])) outer rfl rfl (by simp)
        fun hn => absurd hn hf
      rw [hb, List.length_append]
      exact foldlM_nest_closes last blocks.length ended
    split
    · rw [← List.append_assoc]
      refine closed.append_synthetic (by simp [synthetic, isSynthetic])
        (by simp [nest, synthetic]) (closed.seps.append ?_) outer rfl rfl id
        fun hn => absurd hn hf
      intro before sep after he _
      obtain rfl : before = [] := by
        cases before with
        | nil => rfl
        | cons u before => simp at he
      rw [List.append_nil]
      have outside : s.depth = 0 := h.pending (by simp [hp])
      exact ⟨closed.depth.trans outside, closed.last (by simp [hl])⟩
    · rw [List.append_nil]
      exact closed
  · simpa using h

theorem shift_fields (s : State) (t : Token) :
    (shift s t).base = s.base ∧ (shift s t).blocks = s.blocks ∧
      (shift s t).depth = bracketsAfter s.depth t ∧ (shift s t).pending = s.pending ∧
      (shift s t).last = some t := by
  unfold shift bracketsAfter
  cases t.kind <;> simp

/-- The token itself. -/
theorem shift (h : Emitted read s out) (hp : s.pending = none) (ht : t.kind ≠ .newline)
    (hr : isSynthetic t.kind = false) : Emitted (read ++ [t]) (shift s t) (out ++ [t]) := by
  obtain ⟨hbase, hblocks, hdepth, hpending, hlast⟩ := shift_fields s t
  constructor
  · simp [h.real, ht, hr]
  · rw [List.foldlM_append, h.nested, hblocks]
    simp [nest_of_not_isSynthetic hr]
  · rw [List.foldl_append, h.depth, hdepth]
    rfl
  · apply h.seps.append_of_ne
    intro u hu hk
    simp_all [isSynthetic]
  · simpa only [State.columns, hbase, hblocks] using h.columns
  · simp [hpending, hp]
  · simp [hlast]
  · exact fun _ => ⟨t, by simp, hr⟩

end Emitted

theorem pending_startLine (h : s.last.isSome) : (startLine tabWidth s).2.pending = none := by
  obtain ⟨last, hl⟩ := Option.isSome_iff_exists.mp h
  unfold startLine
  cases hp : s.pending <;> simp [hl, hp]

theorem last_openBlock : (openBlock tabWidth s t).2.last = s.last := by
  unfold openBlock
  split <;> try rfl
  split <;> try rfl
  dsimp only
  split <;> rfl

theorem pending_begin (h : s.last = none) : (begin tabWidth s t).pending = none := by
  simp [begin, h]

theorem last_begin : (begin tabWidth s t).last = s.last := by
  unfold begin
  split <;> simp_all

/-- Before a real token is taken itself, the line end before it has been dealt with. -/
theorem pending_started (s : State) (t : Token) :
    (startLine tabWidth (openBlock tabWidth (begin tabWidth s t) t).2).2.pending = none := by
  cases hl : s.last with
  | none =>
    have begun : (begin tabWidth s t).last = none := (last_begin tabWidth).trans hl
    simp [openBlock, begun, startLine_of_pending_none, pending_begin tabWidth hl]
  | some last =>
    apply pending_startLine
    rw [last_openBlock, last_begin, hl]
    rfl

theorem Emitted.step (h : Emitted read s out) (hr : isSynthetic t.kind = false) :
    Emitted (read ++ [t]) (step tabWidth s t).2 (out ++ (step tabWidth s t).1) := by
  by_cases ht : t.kind = .newline
  · exact h.newline tabWidth ht
  · have started := ((h.begin tabWidth (t := t)).openBlock tabWidth).startLine tabWidth |>.shift
      (pending_started tabWidth s t) ht hr
    simpa only [Layout.step, if_neg ht, List.append_assoc] using started

theorem Emitted.run (h : Emitted read s out) (hr : ∀ t ∈ ts, isSynthetic t.kind = false) :
    Emitted (read ++ ts) (run tabWidth s ts).2 (out ++ (run tabWidth s ts).1) := by
  induction ts generalizing s read out with
  | nil => simpa [Layout.run] using h
  | cons t ts ih =>
    have first := h.step tabWidth (hr t List.mem_cons_self)
    have rest := ih first fun u hu => hr u (List.mem_cons_of_mem t hu)
    simpa only [Layout.run, List.append_assoc, List.singleton_append] using rest

/-- At the end of the text all blocks close. -/
theorem Emitted.finish (h : Emitted read s out) :
    ∃ s', s'.blocks = [] ∧ Emitted read s' (out ++ finish s) := by
  unfold Layout.finish
  split
  · refine ⟨s, (h.first ‹_›).1, ?_⟩
    rwa [List.append_nil]
  · rename_i last hl
    have hf : s.last ≠ none := by simp [hl]
    refine ⟨{ s with blocks := [] }, rfl, ?_⟩
    refine h.append_synthetic ?_ ?_ (h.seps.append_of_ne ?_) (by simp [State.columns]) rfl rfl id
      fun hn => absurd hn hf
    · cases s.expectBlock <;> simp [synthetic, isSynthetic]
    · have ended := foldlM_nest_closes last 0 s.blocks
      rw [List.foldlM_append]
      -- an empty block after a last `where` changes nothing
      cases s.expectBlock <;> simpa [nest, synthetic] using ended
    · cases s.expectBlock <;> simp [synthetic]

/-! ### Tab widths with which nothing can be measured -/

/-- As long as no indentation has to be measured, the tab width does not matter. -/
theorem step_of_unmeasured (h : (s.pending.isSome && decide (t.kind ≠ .newline)) = false) :
    step tabWidth s t = step 0 s t := by
  by_cases ht : t.kind = .newline
  · simp only [step, if_pos ht]
  · have hp : s.pending = none := by simpa [ht] using h
    have hb : begin tabWidth s t = begin 0 s t := by simp [begin, columnOf, hp]
    have hq : (begin 0 s t).pending = none := by
      unfold begin
      split
      · rfl
      · exact hp
    have ho : openBlock tabWidth (begin 0 s t) t = openBlock 0 (begin 0 s t) t := by
      simp [openBlock, columnOf, hq]
    have hn : (openBlock 0 (begin 0 s t) t).2.pending = none := by
      unfold openBlock
      split <;> try exact hq
      split <;> try exact hq
      dsimp only
      split
      · rfl
      · exact hq
    simp only [step, if_neg ht, hb, ho, startLine_of_pending_none hn]

/-- What comes out before an indentation has to be measured. -/
theorem prefix_of_beforeIndent (h : beforeIndent s ts = some out) :
    out <+: (run tabWidth s ts).1 := by
  induction ts generalizing s out with
  | nil => simp [beforeIndent] at h
  | cons t ts ih =>
    rw [beforeIndent] at h
    split at h
    · rename_i hm
      obtain ⟨hp, ht⟩ := by simpa using hm
      obtain rfl := by simpa using h
      simp only [run, step, if_neg ht]
      cases hl : s.last with
      | none => simp
      | some last =>
        cases he : s.expectBlock with
        | false => simp [Option.filter]
        | true =>
          simp only [begin, openBlock, hl, he, Option.filter_some, if_true]
          split <;> simp
    · rename_i hm
      obtain ⟨rest, hr, rfl⟩ := Option.map_eq_some_iff.mp h
      rw [run, step_of_unmeasured tabWidth (by simpa using hm)]
      exact (List.prefix_append_right_inj (step 0 s t).1).mpr (ih hr)

/-! ### Whole streams -/

/-- Layout never corrupts a stream. Without the tokens that it makes, the output is the input
without its line ends; the limits of blocks are balanced; after any front part of the input the
columns of the open blocks increase strictly from the outermost one inwards; a separator stands
outside of brackets and after a real token. With a tab width by which nothing can be measured, what
comes out before the first measurement is a front part of the same output. -/
theorem process_keeps_stream (tabWidth : Int) (ts : List Token)
    (h : ∀ t ∈ ts, isSynthetic t.kind = false) :
    ((process tabWidth ts).filter fun t => !isSynthetic t.kind) =
        ts.filter (fun t => t.kind ≠ .newline) ∧
      (process tabWidth ts).foldlM nest 0 = some 0 ∧
      (∀ us, us <+: ts → (run tabWidth {} us).2.columns.Pairwise (· > ·)) ∧
      SepsPlaced (process tabWidth ts) ∧
      ∀ out, beforeIndent {} ts = some out → out <+: process tabWidth ts := by
  have emitted (us : List Token) (hu : ∀ t ∈ us, isSynthetic t.kind = false) :
      Emitted us (run tabWidth {} us).2 (run tabWidth {} us).1 := by
    simpa using Emitted.empty.run tabWidth hu
  obtain ⟨s, hs, whole⟩ := (emitted ts h).finish
  refine ⟨whole.real, ?_, ?_, whole.seps, ?_⟩
  · rw [process, whole.nested, hs]
    rfl
  · intro us hu
    exact (emitted us fun t ht => h t (hu.mem ht)).columns
  · intro out ho
    exact (prefix_of_beforeIndent tabWidth ho).trans (List.prefix_append _ _)

/-- A bracket that was not opened, a block whose second item ends with an open bracket and another
`where`, and line ends that count nowhere. -/
def unmatched : List Token :=
  let token (kind : Terminal) (text : String) : Token := ⟨kind, text, ⟨.first, .first⟩⟩
  [newlineTo 1, token .rparen ")", token .kwWhere "where", newlineTo 4, token .varid "x",
    newlineTo 4, token .lparen "(", newlineTo 0, token .kwWhere "where", newlineTo 0,
    token .varid "y"]

theorem process_keeps_unmatched :
    (∀ t ∈ unmatched, isSynthetic t.kind = false) ∧
      (process 8 unmatched).map Token.kind =
        [.rparen, .kwWhere, .blockOpen, .varid, .itemSep, .lparen, .kwWhere, .blockOpen, .blockClose,
          .varid, .blockClose] ∧
      ((process 8 unmatched).filter fun t => !isSynthetic t.kind) =
        unmatched.filter (fun t => t.kind ≠ .newline) ∧
      (process 8 unmatched).foldlM nest 0 = some 0 ∧
      (∀ us, us <+: unmatched → (run 8 {} us).2.columns.Pairwise (· > ·)) ∧
      SepsPlaced (process 8 unmatched) := by
  have real : ∀ t ∈ unmatched, isSynthetic t.kind = false := by decide
  obtain ⟨erased, nested, columns, seps, -⟩ := process_keeps_stream 8 unmatched real
  exact ⟨real, by rfl, erased, nested, columns, seps⟩

end TypeLens.Layout
