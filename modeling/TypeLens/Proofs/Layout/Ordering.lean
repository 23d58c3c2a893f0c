import TypeLens.Proofs.Layout.Stream
import TypeLens.Proofs.Lex.Lines
import TypeLens.Proofs.Source.Nesting

/-!
The tokens of a text stand in the order of the text. Tokens that layout makes have no place of their
own, but share that of the last real token before them.
-/

namespace TypeLens

namespace Position

theorem le_next (p : Position) (c : Char) : p.point.le (p.next c).point := by
  rw [Point.le_iff, next]
  split
  · have hline : (p.line : Int) < (p.line + 1 : Nat) := by omega
    exact .inl hline
  · have hcolumn : (p.column : Int) ≤ (p.column + 1 : Nat) := by omega
    exact .inr ⟨rfl, hcolumn⟩

theorem le_after (p : Position) (cs : List Char) : p.point.le (p.after cs).point := by
  induction cs generalizing p with
  | nil => exact Point.le_refl _
  | cons c cs ih => exact Point.le_trans (p.le_next c) (ih (p.next c))

theorem column_pos_after {p : Position} (hp : 0 < p.column) (cs : List Char) :
    0 < (p.after cs).column := by
  induction cs generalizing p with
  | nil => exact hp
  | cons c cs ih =>
    refine ih ?_
    rw [next]
    split <;> simp

end Position

namespace Token

/-- A token stands at real characters. -/
structure Placed (t : Token) : Prop where
  line : 0 < t.region.start.line
  column : 0 < t.region.start.column
  forward : t.region.start.point.le t.region.stop.point

/-- What the place of `u` says of it when it comes after `t`: it overlaps `t` only if layout has
made it. -/
structure Precedes (t u : Token) : Prop where
  start : t.region.start.point.le u.region.start.point
  stop : t.region.stop.point.le u.region.stop.point
  apart : Layout.isSynthetic u.kind = false → t.region.stop.point.le u.region.start.point

theorem Precedes.of_stop {t u : Token} (ht : t.Placed) (hu : u.Placed)
    (h : t.region.stop.point.le u.region.start.point) : t.Precedes u :=
  ⟨Point.le_trans ht.forward h, Point.le_trans h hu.forward, fun _ => h⟩

/-- Tokens in the order of the text. -/
structure Ordered (ts : List Token) : Prop where
  placed : ∀ t ∈ ts, t.Placed
  precedes : ts.Pairwise Precedes

theorem Ordered.sublist {ts us : List Token} (h : Ordered us) (hts : ts.Sublist us) : Ordered ts :=
  ⟨fun t ht => h.placed t (hts.subset ht), h.precedes.sublist hts⟩

end Token

open Token

namespace Lex

theorem le_start_of_mem_tokensFrom {p : Position} {ps : List Piece} {t : Token}
    (h : t ∈ tokensFrom p ps) : p.point.le t.region.start.point := by
  induction ps generalizing p with
  | nil => cases h
  | cons q ps ih =>
    obtain ⟨kind, text⟩ := q
    have hlater (ht : t ∈ tokensFrom (p.after text) ps) : p.point.le t.region.start.point :=
      Point.le_trans (p.le_after text) (ih ht)
    cases kind with
    | token k =>
      rcases List.mem_cons.1 h with rfl | ht
      · exact Point.le_refl _
      · exact hlater ht
    | blank | comment => exact hlater h

theorem ordered_tokensFrom {p : Position} (hline : 0 < p.line) (hcolumn : 0 < p.column)
    (ps : List Piece) : Ordered (tokensFrom p ps) := by
  induction ps generalizing p with
  | nil => exact ⟨by simp [tokensFrom], .nil⟩
  | cons q ps ih =>
    obtain ⟨kind, text⟩ := q
    have hrest : Ordered (tokensFrom (p.after text) ps) :=
      ih (Nat.lt_of_lt_of_le hline (p.line_le_after text)) (Position.column_pos_after hcolumn text)
    cases kind with
    | token k =>
      have hplaced : Placed ⟨k, String.ofList text, ⟨p, p.after text⟩⟩ :=
        ⟨hline, hcolumn, p.le_after text⟩
      refine ⟨List.forall_mem_cons.2 ⟨hplaced, hrest.placed⟩,
        List.pairwise_cons.2 ⟨fun t ht => ?_, hrest.precedes⟩⟩
      exact .of_stop hplaced (hrest.placed t ht) (le_start_of_mem_tokensFrom ht)
    | blank | comment => exact hrest

theorem ordered_lex (cs : List Char) : Ordered (lex cs).tokens :=
  ordered_tokensFrom Nat.one_pos Nat.one_pos _

end Lex

namespace Layout

variable (tabWidth : Int) {s : State} {t : Token} {ts out : List Token}

/-- Tokens that layout makes after the last real token. -/
def State.Makes (s : State) (new : List Token) : Prop :=
  ∀ u ∈ new, isSynthetic u.kind ∧ ∃ l ∈ s.last, u.region = l.region

theorem makes_nil : s.Makes [] := by simp [State.Makes]

theorem State.Makes.append {new new' : List Token} (h : s.Makes new) (h' : s.Makes new') :
    s.Makes (new ++ new') := List.forall_mem_append.2 ⟨h, h'⟩

theorem State.Makes.of_last {s' : State} {new : List Token} (h : s'.Makes new)
    (hl : s'.last = s.last) : s.Makes new := fun u hu => hl ▸ h u hu

theorem makes_openBlock : s.Makes (openBlock tabWidth s t).1 := by
  unfold openBlock
  split
  · next l hl =>
    split
    · dsimp only
      split <;> simp [State.Makes, synthetic, isSynthetic, hl]
    · exact makes_nil
  · exact makes_nil

theorem makes_startLine : s.Makes (startLine tabWidth s).1 := by
  unfold startLine
  split
  · next n l hn hl =>
    obtain ⟨ended, -, hclosed⟩ := Emitted.closeBlocks_eq (indentOf tabWidth n) l s.blocks
    refine .append ?_ ?_
    · rw [hclosed]
      simp [State.Makes, synthetic, isSynthetic, hl]
    · split <;> simp [State.Makes, synthetic, isSynthetic, hl]
  · exact makes_nil

theorem makes_finish : s.Makes (finish s) := by
  unfold finish
  split
  · exact makes_nil
  · next l hl =>
    refine .append ?_ (by simp [State.Makes, synthetic, isSynthetic, hl])
    split <;> simp [State.Makes, synthetic, isSynthetic, hl]

/-- What is put out for one token, other than the token itself, is made after the last one. -/
theorem step_of_ne_newline (ht : t.kind ≠ .newline) :
    ∃ new, s.Makes new ∧ (step tabWidth s t).1 = new ++ [t] ∧
      (step tabWidth s t).2.last = some t := by
  let begun := begin tabWidth s t
  let opened := openBlock tabWidth begun t
  have hbegun : begun.last = s.last := last_begin tabWidth
  have hopened : opened.2.last = s.last := (last_openBlock tabWidth).trans hbegun
  refine ⟨opened.1 ++ (startLine tabWidth opened.2).1, ?_, ?_, ?_⟩
  · exact .append ((makes_openBlock tabWidth).of_last hbegun)
      ((makes_startLine tabWidth).of_last hopened)
  · rw [step, if_neg ht]
  · rw [step, if_neg ht]
    exact (Emitted.shift_fields _ t).2.2.2.2

/-- Tokens put out so far, the last real one being that of the state. -/
structure State.Covers (s : State) (out : List Token) : Prop where
  ordered : Ordered out
  last : ∀ l ∈ s.last, l ∈ out
  bounded : ∀ u ∈ out, ∃ l ∈ s.last, u.region.start.point.le l.region.start.point ∧
    u.region.stop.point.le l.region.stop.point

namespace State.Covers

theorem empty : State.Covers {} [] := ⟨⟨by simp, .nil⟩, by simp, by simp⟩

theorem of_last {s' : State} (h : s.Covers out) (hl : s'.last = s.last) : s'.Covers out :=
  ⟨h.ordered, hl ▸ h.last, hl ▸ h.bounded⟩

theorem append {new : List Token} (h : s.Covers out) (hn : s.Makes new) : s.Covers (out ++ new) := by
  -- everything that is made stands at the one place of the last real token
  have hplace {u v : Token} (hu : u ∈ new) {l : Token} (hl : l ∈ s.last)
      (hstart : v.region.start.point.le l.region.start.point)
      (hstop : v.region.stop.point.le l.region.stop.point) : v.Precedes u := by
    obtain ⟨hmade, l', hl', hregion⟩ := hn u hu
    obtain rfl := Option.mem_unique hl hl'
    exact ⟨hregion ▸ hstart, hregion ▸ hstop, fun hreal => by simp [hmade] at hreal⟩
  have hregion {u : Token} (hu : u ∈ new) : ∃ l ∈ s.last, l ∈ out ∧ u.region = l.region := by
    obtain ⟨-, l, hl, hregion⟩ := hn u hu
    exact ⟨l, hl, h.last l hl, hregion⟩
  refine ⟨⟨List.forall_mem_append.2 ⟨h.ordered.placed, fun u hu => ?_⟩,
    List.pairwise_append.2 ⟨h.ordered.precedes, ?_, fun v hv u hu => ?_⟩⟩,
    fun l hl => List.mem_append_left _ (h.last l hl),
    List.forall_mem_append.2 ⟨h.bounded, fun u hu => ?_⟩⟩
  · obtain ⟨l, -, hl, hregion⟩ := hregion hu
    obtain ⟨hline, hcolumn, hforward⟩ := h.ordered.placed l hl
    exact ⟨hregion ▸ hline, hregion ▸ hcolumn, hregion ▸ hforward⟩
  · refine List.pairwise_of_forall_mem_list fun v hv u hu => ?_
    obtain ⟨l, hl, -, hregion⟩ := hregion hv
    exact hplace hu hl (hregion ▸ Point.le_refl _) (hregion ▸ Point.le_refl _)
  · obtain ⟨l, hl, hstart, hstop⟩ := h.bounded v hv
    exact hplace hu hl hstart hstop
  · obtain ⟨l, hl, -, hregion⟩ := hregion hu
    exact ⟨l, hl, hregion ▸ Point.le_refl _, hregion ▸ Point.le_refl _⟩

theorem push {s' : State} (h : s.Covers out) (ht : t.Placed)
    (hafter : ∀ l ∈ s.last, l.Precedes t ∧ l.region.stop.point.le t.region.start.point)
    (hl : s'.last = some t) : s'.Covers (out ++ [t]) := by
  have hprecedes {u : Token} (hu : u ∈ out) : u.Precedes t := by
    obtain ⟨l, hl, -, hstop⟩ := h.bounded u hu
    exact .of_stop (h.ordered.placed u hu) ht (Point.le_trans hstop (hafter l hl).2)
  refine ⟨⟨?_, ?_⟩, ?_, fun u hu => ⟨t, hl, ?_⟩⟩
  · exact List.forall_mem_append.2 ⟨h.ordered.placed, List.forall_mem_singleton.2 ht⟩
  · refine List.pairwise_append.2 ⟨h.ordered.precedes, List.pairwise_singleton .., ?_⟩
    exact fun u hu v hv => List.mem_singleton.1 hv ▸ hprecedes hu
  · simp [hl]
  · rcases List.mem_append.1 hu with hu | hu
    · exact ⟨(hprecedes hu).start, (hprecedes hu).stop⟩
    · rw [List.mem_singleton.1 hu]
      exact ⟨Point.le_refl _, Point.le_refl _⟩

end State.Covers

/-- Layout keeps the order of real tokens. -/
theorem covers_run (h : s.Covers out) (hts : Ordered (s.last.toList ++ ts))
    (hreal : ∀ t ∈ ts, isSynthetic t.kind = false) :
    (run tabWidth s ts).2.Covers (out ++ (run tabWidth s ts).1) := by
  induction ts generalizing s out with
  | nil => simpa [run] using h
  | cons t ts ih =>
    obtain ⟨ht, hreal⟩ := List.forall_mem_cons.1 hreal
    rw [run]
    by_cases hnewline : t.kind = .newline
    · have hstep : (step tabWidth s t).1 = [] ∧ (step tabWidth s t).2.last = s.last := by
        rw [step, if_pos hnewline]
        split <;> exact ⟨rfl, rfl⟩
      have hrest : Ordered ((step tabWidth s t).2.last.toList ++ ts) := by
        rw [hstep.2]
        exact hts.sublist ((List.sublist_cons_self t ts).append_left _)
      simpa [hstep.1] using ih (h.of_last hstep.2) hrest hreal
    · obtain ⟨new, hnew, hout, hlast⟩ := step_of_ne_newline tabWidth hnewline
      have hafter : ∀ l ∈ s.last, l.Precedes t ∧ l.region.stop.point.le t.region.start.point := by
        intro l hl
        have hpair := (List.pairwise_append.1 hts.precedes).2.2 l (by simpa using hl) t
          (List.mem_cons_self ..)
        exact ⟨hpair, hpair.apart ht⟩
      have hstep : (step tabWidth s t).2.Covers (out ++ (step tabWidth s t).1) := by
        rw [hout, ← List.append_assoc]
        exact (h.append hnew).push (hts.placed t (by simp)) hafter hlast
      have hrest : Ordered ((step tabWidth s t).2.last.toList ++ ts) := by
        rw [hlast]
        exact hts.sublist (List.sublist_append_right ..)
      rw [← List.append_assoc]
      exact ih hstep hrest hreal

theorem ordered_process (hts : Ordered ts) (hreal : ∀ t ∈ ts, isSynthetic t.kind = false) :
    Ordered (process tabWidth ts) := by
  have hrun := covers_run tabWidth .empty hts hreal
  exact (hrun.append makes_finish).ordered

end Layout

end TypeLens
