import TypeLens.Lex.Token

/-!
Spans within and beside each other. The outline of a tree is the tree of its spans; outlines nest if
the spans of siblings follow each other within the span of their parent.
-/

namespace TypeLens

namespace Point

variable {a b c : Point}

theorem le_iff : a.le b ↔ a.line < b.line ∨ a.line = b.line ∧ a.column ≤ b.column := by
  simp [le]

theorem le_refl (a : Point) : a.le a := le_iff.2 (.inr ⟨rfl, Int.le_refl _⟩)

theorem le_trans (hab : a.le b) (hbc : b.le c) : a.le c := by
  rw [le_iff] at *
  omega

end Point

namespace Span

variable {s t u s' t' : Span}

/-- One span ends before another one starts; they may touch. -/
def before (s t : Span) : Bool := s.stop.le t.start

/-- Two spans have no character in common. -/
def Apart (s t : Span) : Prop := s.before t ∨ t.before s

theorem Apart.symm (h : s.Apart t) : t.Apart s := Or.symm h

theorem within_iff :
    s.within t ↔ s.good ∧ t.good ∧ s.file = t.file ∧ t.start.le s.start ∧ s.stop.le t.stop := by
  simp [within, and_assoc]

theorem within_refl (h : s.good) : s.within s :=
  within_iff.2 ⟨h, h, rfl, Point.le_refl _, Point.le_refl _⟩

theorem within_trans (hst : s.within t) (htu : t.within u) : s.within u := by
  obtain ⟨hs, -, hfile, hstart, hstop⟩ := within_iff.1 hst
  obtain ⟨-, hu, hfile', hstart', hstop'⟩ := within_iff.1 htu
  exact within_iff.2 ⟨hs, hu, hfile.trans hfile', Point.le_trans hstart' hstart,
    Point.le_trans hstop hstop'⟩

/-- What lies within spans that follow each other follows each other as well. -/
theorem before_of_within (hs : s.within s') (ht : t.within t') (h : s'.before t') : s.before t := by
  obtain ⟨-, -, -, -, hstop⟩ := within_iff.1 hs
  obtain ⟨-, -, -, hstart, -⟩ := within_iff.1 ht
  exact Point.le_trans hstop (Point.le_trans h hstart)

theorem Apart.of_within (h : s'.Apart t') (hs : s.within s') (ht : t.within t') : s.Apart t :=
  h.imp (before_of_within hs ht) (before_of_within ht hs)

theorem good_cover (hs : s.good) (ht : t.good) : (s.cover t).good := by
  rw [cover, hs, ht]
  unfold good extent at *
  split at hs <;> split at ht <;> simp_all

theorem start_cover (hs : s.good) (ht : t.good) : (s.cover t).start = s.start := by
  rw [cover, hs, ht]
  rfl

theorem stop_cover (hs : s.good) (ht : t.good) : (s.cover t).stop = t.stop := by
  rw [cover, hs, ht]
  rfl

theorem file_cover (hs : s.good) (ht : t.good) : (s.cover t).file = s.file := by
  rw [cover, hs, ht]
  rfl

/-- Any two of the spans are nested, or have at most an end point in common. -/
def Laminar (ss : List Span) : Prop :=
  ∀ s ∈ ss, ∀ t ∈ ss, s.within t ∨ t.within s ∨ s.Apart t

end Span

/-- The spans of a tree. -/
inductive Outline
  | mk (loc : Span) (parts : List Outline)

namespace Outline

def loc : Outline → Span
  | .mk l _ => l

def parts : Outline → List Outline
  | .mk _ os => os

/-- Every span is good, and within it those of its parts follow each other. -/
inductive Nests : Outline → Prop
  | mk {l : Span} {os : List Outline} (good : l.good) (forward : l.start.le l.stop)
      (within : ∀ o ∈ os, o.loc.within l) (inOrder : os.Pairwise fun o p => o.loc.before p.loc)
      (nests : ∀ o ∈ os, o.Nests) : (mk l os).Nests

namespace Nests

variable {o : Outline}

theorem good (h : o.Nests) : o.loc.good := by cases h; assumption

theorem forward (h : o.Nests) : o.loc.start.le o.loc.stop := by cases h; assumption

theorem within (h : o.Nests) : ∀ p ∈ o.parts, p.loc.within o.loc := by cases h; assumption

theorem inOrder (h : o.Nests) : o.parts.Pairwise fun p q => p.loc.before q.loc := by
  cases h; assumption

theorem nests (h : o.Nests) : ∀ p ∈ o.parts, p.Nests := by cases h; assumption

end Nests

/-- Outlines that nest and follow each other. -/
structure InOrder (os : List Outline) : Prop where
  nests : ∀ o ∈ os, o.Nests
  inOrder : os.Pairwise fun o p => o.loc.before p.loc

theorem Nests.parts_inOrder {o : Outline} (h : o.Nests) : InOrder o.parts := ⟨h.nests, h.inOrder⟩

namespace InOrder

variable {o : Outline} {os ps : List Outline}

theorem sublist (h : InOrder ps) (hos : os.Sublist ps) : InOrder os :=
  ⟨fun o ho => h.nests o (hos.subset ho), h.inOrder.sublist hos⟩

theorem apart (h : InOrder (os ++ ps)) : ∀ s ∈ os.map loc, ∀ t ∈ ps.map loc, s.Apart t := by
  intro s hs t ht
  obtain ⟨o, ho, rfl⟩ := List.mem_map.1 hs
  obtain ⟨p, hp, rfl⟩ := List.mem_map.1 ht
  exact .inl ((List.pairwise_append.1 h.inOrder).2.2 o ho p hp)

/-- What stands at such outlines is in order. -/
theorem pairwise {α : Type} {place : α → Span} {as : List α} (h : InOrder os)
    (has : as.map place = os.map loc) :
    as.Pairwise fun a a' => (place a).before (place a') := by
  have hlocs : (os.map loc).Pairwise fun s t => s.before t := List.pairwise_map.2 h.inOrder
  exact List.pairwise_map.1 (has ▸ hlocs)

end InOrder

/-- Three spans in order nest in the one that covers them. -/
theorem nests_cover {a b c : Outline} (h : InOrder [a, b, c]) (hb : b.loc.file = a.loc.file)
    (hc : c.loc.file = a.loc.file) : (mk (a.loc.cover c.loc) [a, b, c]).Nests := by
  obtain ⟨hna, hnb, hnc⟩ : a.Nests ∧ b.Nests ∧ c.Nests := by simpa using h.nests
  obtain ⟨⟨hab, hac⟩, hbc⟩ : (a.loc.before b.loc ∧ a.loc.before c.loc) ∧ b.loc.before c.loc := by
    simpa using h.inOrder
  have hgood := Span.good_cover hna.good hnc.good
  have hfile := Span.file_cover hna.good hnc.good
  have hstart := Span.start_cover hna.good hnc.good
  have hstop := Span.stop_cover hna.good hnc.good
  have hwithin {o : Outline} (ho : o.Nests) (hf : o.loc.file = a.loc.file)
      (hl : a.loc.start.le o.loc.start) (hr : o.loc.stop.le c.loc.stop) :
      o.loc.within (a.loc.cover c.loc) := by
    rw [Span.within_iff, hstart, hstop, hfile]
    exact ⟨ho.good, hgood, hf, hl, hr⟩
  refine ⟨hgood, ?_, ?_, h.inOrder, h.nests⟩
  · rw [hstart, hstop]
    exact Point.le_trans hna.forward (Point.le_trans hac hnc.forward)
  · have ha := hwithin hna rfl (Point.le_refl _) (Point.le_trans hac hnc.forward)
    have hb := hwithin hnb hb (Point.le_trans hna.forward hab) (Point.le_trans hbc hnc.forward)
    have hc := hwithin hnc hc (Point.le_trans hna.forward hac) (Point.le_refl _)
    simpa using ⟨ha, hb, hc⟩

end Outline

-- Regions

def Position.point (p : Position) : Point := ⟨p.line, p.column⟩

namespace Region

variable (file : Option String) (r : Region)

@[simp]
theorem start_span : (r.span file).start = r.start.point := rfl

@[simp]
theorem stop_span : (r.span file).stop = r.stop.point := rfl

@[simp]
theorem file_span : (r.span file).file = file := rfl

theorem good_span : (r.span file).good ↔ 0 < r.start.line ∧ 0 < r.start.column := by
  simp [Span.good, Span.extent, span]

theorem cover_span {r s : Region} (hr : (r.span file).good) (hs : (s.span file).good) :
    (r.span file).cover (s.span file) = (r.through s).span file := by
  rw [Span.cover, hr, hs]
  rfl

end Region

end TypeLens
