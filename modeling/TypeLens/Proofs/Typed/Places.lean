import Mathlib.Data.List.Forall2
import TypeLens.Proofs.Source.Nesting
import TypeLens.Proofs.Typed.Positions

/-!
Where the nodes of a typed tree stand in the text.
-/

namespace TypeLens.Typed

/-- The span of a node, if it is good. Binding groups and groups of equations have no place of their
own. -/
def Node.place? : Node → Option Span
  | .bind (.abs _ _ _ _ _) => none
  | .group _ => none
  | n => if n.loc.good then some n.loc else none

def places (ns : List Node) : List Span := ns.filterMap Node.place?

theorem places_append (ns ms : List Node) : places (ns ++ ms) = places ns ++ places ms :=
  List.filterMap_append

theorem mem_places {ns : List Node} {s : Span} :
    s ∈ places ns ↔ ∃ n ∈ ns, n.place? = some s := List.mem_filterMap

/-- A node stands at a span, or nowhere. -/
def Node.StandsAt (n : Node) (l : Span) : Prop := ∀ s ∈ n.place?, s = l

theorem standsAt_loc (n : Node) : n.StandsAt n.loc := by
  intro s hs
  unfold Node.place? at hs
  split at hs
  · cases hs
  · cases hs
  · split at hs
    · exact (Option.some.inj hs).symm
    · cases hs

/-- Nodes that stand within some spans, any two of them nested or apart. -/
structure Fills (ss : List Span) (ns : List Node) : Prop where
  within : ∀ s ∈ places ns, ∃ t ∈ ss, s.within t
  laminar : Span.Laminar (places ns)

namespace Fills

variable {ss ts : List Span} {ns ms : List Node} {n : Node} {l : Span}

theorem nil (ss : List Span) : Fills ss [] := ⟨by simp [places], by simp [places, Span.Laminar]⟩

theorem mono (h : Fills ss ns) (hs : ss ⊆ ts) : Fills ts ns := by
  refine ⟨fun s hmem => ?_, h.laminar⟩
  obtain ⟨t, ht, hwithin⟩ := h.within s hmem
  exact ⟨t, hs ht, hwithin⟩

/-- The spans may be given up for wider ones. -/
theorem widen (h : Fills ss ns) (hss : ∀ s ∈ ss, ∃ t ∈ ts, s.within t) : Fills ts ns := by
  refine ⟨fun s hmem => ?_, h.laminar⟩
  obtain ⟨t, ht, hwithin⟩ := h.within s hmem
  obtain ⟨u, hu, hwithin'⟩ := hss t ht
  exact ⟨u, hu, Span.within_trans hwithin hwithin'⟩

theorem widen_singleton {t : Span} (h : Fills ss ns) (hss : ∀ s ∈ ss, s.within t) :
    Fills [t] ns := h.widen fun s hs => ⟨t, List.mem_singleton.2 rfl, hss s hs⟩

theorem append (h : Fills ss ns) (h' : Fills ts ms) (hapart : ∀ s ∈ ss, ∀ t ∈ ts, s.Apart t) :
    Fills (ss ++ ts) (ns ++ ms) := by
  have hcross {s t : Span} (hs : s ∈ places ns) (ht : t ∈ places ms) : s.Apart t := by
    obtain ⟨s', hs', hwithin⟩ := h.within s hs
    obtain ⟨t', ht', hwithin'⟩ := h'.within t ht
    exact (hapart s' hs' t' ht').of_within hwithin hwithin'
  refine ⟨?_, ?_⟩
  · rw [places_append]
    exact List.forall_mem_append.2 ⟨(h.mono (List.subset_append_left ss ts)).within,
      (h'.mono (List.subset_append_right ss ts)).within⟩
  · intro s hs t ht
    rw [places_append, List.mem_append] at hs ht
    rcases hs with hs | hs <;> rcases ht with ht | ht
    · exact h.laminar s hs t ht
    · exact .inr (.inr (hcross hs ht))
    · exact .inr (.inr (hcross ht hs).symm)
    · exact h'.laminar s hs t ht

/-- A node around others that stand within its span. -/
theorem around (h : Fills ss ns) (hl : l.good) (hn : n.StandsAt l) (hss : ∀ s ∈ ss, s.within l) :
    Fills [l] (n :: ns) := by
  have hinner : ∀ s ∈ places ns, s.within l := by
    intro s hs
    obtain ⟨t, ht, hwithin⟩ := h.within s hs
    exact Span.within_trans hwithin (hss t ht)
  have hmem {s : Span} (hs : s ∈ places (n :: ns)) : s = l ∨ s ∈ places ns := by
    obtain ⟨m, hm, hplace⟩ := mem_places.1 hs
    rcases List.mem_cons.1 hm with rfl | hm
    · exact .inl (hn s hplace)
    · exact .inr (mem_places.2 ⟨m, hm, hplace⟩)
  have hwithin {s : Span} (hs : s ∈ places (n :: ns)) : s.within l := by
    rcases hmem hs with rfl | hs
    · exact Span.within_refl hl
    · exact hinner s hs
  refine ⟨fun s hs => ⟨l, List.mem_singleton.2 rfl, hwithin hs⟩, fun s hs t ht => ?_⟩
  rcases hmem hs with rfl | hs'
  · exact .inr (.inl (hwithin ht))
  · rcases hmem ht with rfl | ht'
    · exact .inl (hwithin hs)
    · exact h.laminar s hs' t ht'

/-- A node without a place changes nothing. -/
theorem hidden (h : Fills ss ns) (hn : n.place? = none) : Fills ss (n :: ns) := by
  have hplaces : places (n :: ns) = places ns := List.filterMap_cons_none hn
  exact ⟨hplaces ▸ h.within, hplaces ▸ h.laminar⟩

theorem leaf (hl : l.good) (hn : n.StandsAt l) : Fills [l] [n] :=
  (nil []).around hl hn (List.forall_mem_nil _)

/-- A node whose children stand at the parts of an outline. -/
theorem node {os : List Outline} (hl : (Outline.mk l os).Nests)
    (h : Fills (os.map Outline.loc) ns) (hn : n.StandsAt l) : Fills [l] (n :: ns) :=
  h.around hl.good hn (List.forall_mem_map.2 hl.within)

/-- Children at outlines one after the other. -/
theorem beside {os ps : List Outline} (hall : Outline.InOrder (os ++ ps))
    (h : Fills (os.map Outline.loc) ns) (h' : Fills (ps.map Outline.loc) ms) :
    Fills ((os ++ ps).map Outline.loc) (ns ++ ms) := by
  rw [List.map_append]
  exact h.append h' hall.apart

theorem cons {o : Outline} {os : List Outline} (hall : Outline.InOrder (o :: os))
    (h : Fills [o.loc] ns) (h' : Fills (os.map Outline.loc) ms) :
    Fills ((o :: os).map Outline.loc) (ns ++ ms) := by
  have hparts : Outline.InOrder ([o] ++ os) := hall
  exact beside hparts h h'

/-- What stands at places that are apart, one after the other. -/
theorem flatMap {α β : Type} {place : α → Span} {nodes : β → List Node} {as : List α} {bs : List β}
    (h : List.Forall₂ (fun a b => Fills [place a] (nodes b)) as bs)
    (hapart : as.Pairwise fun a a' => (place a).Apart (place a')) :
    Fills (as.map place) (bs.flatMap nodes) := by
  induction h with
  | nil => exact .nil []
  | cons h _ ih =>
    obtain ⟨hfirst, hrest⟩ := List.pairwise_cons.1 hapart
    refine h.append (ih hrest) ?_
    rw [List.forall_mem_singleton, List.forall_mem_map]
    exact hfirst

end Fills

end TypeLens.Typed
