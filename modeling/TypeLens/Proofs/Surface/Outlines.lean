import TypeLens.Proofs.Layout.Ordering
import TypeLens.Surface.Parse

/-!
Spans of a module nest. What is built of a run of tokens has an outline that is drawn over these
tokens, and such an outline nests if the tokens stand in the order of the text.
-/

namespace TypeLens.Surface

open Concrete
open Token (Ordered)
open Layout (isSynthetic)

-- Outlines of trees

mutual

def TypeExpr.outline : TypeExpr → Outline
  | .var _ l => .mk l []
  | .con _ args l => .mk l (TypeExpr.outlines args)
  | .fn a r l => .mk l [a.outline, r.outline]

def TypeExpr.outlines : List TypeExpr → List Outline
  | [] => []
  | t :: ts => t.outline :: TypeExpr.outlines ts

end

def PredExpr.outline (p : PredExpr) : Outline := .mk p.loc []

def QualType.outline (q : QualType) : Outline :=
  .mk q.loc (q.context.map PredExpr.outline ++ [q.body.outline])

mutual

def Pat.outline : Pat → Outline
  | .var _ l => .mk l []
  | .wild l => .mk l []
  | .lit _ l => .mk l []
  | .con _ args l => .mk l (Pat.outlines args)
  | .par p l => .mk l [p.outline]

def Pat.outlines : List Pat → List Outline
  | [] => []
  | p :: ps => p.outline :: Pat.outlines ps

end

def OpRef.outline (op : OpRef) : Outline := .mk op.loc []

mutual

def Expr.outline : Expr → Outline
  | .var _ l => .mk l []
  | .con _ l => .mk l []
  | .lit _ l => .mk l []
  | .app f a l => .mk l [f.outline, a.outline]
  | .row e rest l => .mk l (e.outline :: Operand.outlines rest)
  | .lambda ps e l => .mk l (Pat.outlines ps ++ [e.outline])
  | .letIn bs e l => .mk l (Binding.outlines bs ++ [e.outline])
  | .ifThenElse c y n l => .mk l [c.outline, y.outline, n.outline]
  | .caseOf s as l => .mk l (s.outline :: Alt.outlines as)
  | .list es l => .mk l (Expr.outlines es)
  | .par e l => .mk l [e.outline]

def Expr.outlines : List Expr → List Outline
  | [] => []
  | e :: es => e.outline :: Expr.outlines es

/-- The operators of a row with their right operands. -/
def Operand.outlines : List Operand → List Outline
  | [] => []
  | .mk op e :: es => op.outline :: e.outline :: Operand.outlines es

def Alt.outline : Alt → Outline
  | .mk p e l => .mk l [p.outline, e.outline]

def Alt.outlines : List Alt → List Outline
  | [] => []
  | a :: as => a.outline :: Alt.outlines as

def Match.outline : Match → Outline
  | .mk ps e l => .mk l (Pat.outlines ps ++ [e.outline])

def Match.outlines : List Match → List Outline
  | [] => []
  | m :: ms => m.outline :: Match.outlines ms

def FunBind.outline : FunBind → Outline
  | .mk _ _ m ms l => .mk l (m.outline :: Match.outlines ms)

def PatBind.outline : PatBind → Outline
  | .mk p e l => .mk l [p.outline, e.outline]

def Binding.outline : Binding → Outline
  | .fn b => b.outline
  | .pat b => b.outline

def Binding.outlines : List Binding → List Outline
  | [] => []
  | b :: bs => b.outline :: Binding.outlines bs

end

def ConDecl.outline (c : ConDecl) : Outline := .mk c.loc (TypeExpr.outlines c.args)

def TypeSig.outline (s : TypeSig) : Outline := .mk s.loc [s.ty.outline]

def Decl.outline : Decl → Outline
  | .data d => .mk d.loc (d.cons.map ConDecl.outline)
  | .sig s => s.outline
  | .prim p => .mk p.loc [p.sig.outline]
  | .fixity f => .mk f.loc []
  | .cls c => .mk c.loc (c.sigs.map TypeSig.outline)
  | .inst i =>
    .mk i.loc (i.context.map PredExpr.outline ++ i.head.outline :: i.binds.map FunBind.outline)
  | .bind b => b.outline

def ImportDecl.outline (i : ImportDecl) : Outline := .mk i.loc []

/-- The outlines of the imports and declarations. -/
def Module.outlines (m : Module) : List Outline :=
  m.imports.map ImportDecl.outline ++ m.decls.map Decl.outline

/-- The spans of a module nest: imports and declarations follow each other within the module, and
so do the parts of each node. -/
structure Module.Nests (m : Module) : Prop where
  nests : ∀ o ∈ m.outlines, o.Nests
  inOrder : m.outlines.Pairwise fun o p => o.loc.before p.loc
  within : ∀ o ∈ m.outlines, o.loc.within m.loc

@[simp]
theorem TypeExpr.outlines_eq (ts : List TypeExpr) :
    TypeExpr.outlines ts = ts.map TypeExpr.outline := by
  induction ts with
  | nil => rfl
  | cons t ts ih => rw [TypeExpr.outlines, ih, List.map_cons]

@[simp]
theorem Pat.outlines_eq (ps : List Pat) : Pat.outlines ps = ps.map Pat.outline := by
  induction ps with
  | nil => rfl
  | cons p ps ih => rw [Pat.outlines, ih, List.map_cons]

@[simp]
theorem Expr.outlines_eq (es : List Expr) : Expr.outlines es = es.map Expr.outline := by
  induction es with
  | nil => rfl
  | cons e es ih => rw [Expr.outlines, ih, List.map_cons]

@[simp]
theorem Binding.outlines_eq (bs : List Binding) :
    Binding.outlines bs = bs.map Binding.outline := by
  induction bs with
  | nil => rfl
  | cons b bs ih => rw [Binding.outlines, ih, List.map_cons]

@[simp]
theorem Alt.outlines_eq (as : List Alt) : Alt.outlines as = as.map Alt.outline := by
  induction as with
  | nil => rfl
  | cons a as ih => rw [Alt.outlines, ih, List.map_cons]

@[simp]
theorem Match.outlines_eq (ms : List Match) : Match.outlines ms = ms.map Match.outline := by
  induction ms with
  | nil => rfl
  | cons m ms ih => rw [Match.outlines, ih, List.map_cons]

-- Runs of tokens

/-- A region reaches from the first of some tokens, a real one, to the last. -/
structure Spans (ts : List Token) (r : Region) : Prop where
  first : ∃ t ∈ ts.head?, isSynthetic t.kind = false ∧ t.region.start = r.start
  last : ∃ t ∈ ts.getLast?, t.region.stop = r.stop

namespace Spans

variable {xs ys : List Token} {r s : Region}

theorem tok {k : Terminal} (t : Tok k) (hk : isSynthetic k = false) : Spans [t.token] t.region :=
  ⟨⟨t.token, rfl, hk, rfl⟩, ⟨t.token, rfl, rfl⟩⟩

theorem through (hx : Spans xs r) (hy : Spans ys s) (mid : List Token) :
    Spans (xs ++ (mid ++ ys)) (r.through s) := by
  obtain ⟨t, ht, hfirst⟩ := hx.first
  obtain ⟨u, hu, hlast⟩ := hy.last
  refine ⟨⟨t, ?_, hfirst⟩, ⟨u, ?_, hlast⟩⟩
  · rw [List.head?_append, Option.mem_def.1 ht]
    rfl
  · rw [List.getLast?_append, List.getLast?_append, Option.mem_def.1 hu]
    rfl

theorem append (hx : Spans xs r) (hy : Spans ys s) : Spans (xs ++ ys) (r.through s) :=
  hx.through hy []

theorem span_eq (h : Spans xs r) (file : Option String) : spanOf file xs = r.span file := by
  obtain ⟨t, ht, -, hstart⟩ := h.first
  obtain ⟨u, hu, hstop⟩ := h.last
  rw [spanOf, Option.mem_def.1 ht, Option.mem_def.1 hu]
  exact congrArg (Region.span file) (congrArg₂ Region.mk hstart hstop)

theorem exists_of_head {t : Token} (ht : isSynthetic t.kind = false) (ts : List Token) :
    ∃ r, Spans (t :: ts) r := by
  let u := (t :: ts).getLast (List.cons_ne_nil t ts)
  have hu : u ∈ (t :: ts).getLast? := List.getLast?_eq_some_getLast _
  exact ⟨⟨t.region.start, u.region.stop⟩, ⟨t, rfl, ht, rfl⟩, ⟨u, hu, rfl⟩⟩

end Spans

/-- Outlines drawn over a run of tokens, from left to right. The span of a node reaches over all
tokens of its run; neighbours may be joined. -/
inductive Drawn (file : Option String) : List Token → List Outline → Prop
  | nil : Drawn file [] []
  | widen {xs ts : List Token} {os : List Outline} (h : Drawn file xs os) (hx : xs.Sublist ts) :
      Drawn file ts os
  | append {xs ys : List Token} {os ps : List Outline} (hx : Drawn file xs os)
      (hy : Drawn file ys ps) : Drawn file (xs ++ ys) (os ++ ps)
  | node {ts : List Token} {r : Region} {os : List Outline} (hr : Spans ts r)
      (h : Drawn file ts os) : Drawn file ts [.mk (r.span file) os]
  | join {xs ys : List Token} {l l' : Span} {os ps : List Outline}
      (hx : Drawn file xs [.mk l os]) (hy : Drawn file ys [.mk l' ps]) :
      Drawn file (xs ++ ys) [.mk (l.cover l') (os ++ ps)]

namespace Drawn

variable {file : Option String} {xs ys ts : List Token} {o : Outline} {os ps : List Outline}

theorem none (ts : List Token) : Drawn file ts [] := .widen .nil (List.nil_sublist ts)

theorem cons (hx : Drawn file xs [o]) (hy : Drawn file ys os) : Drawn file (xs ++ ys) (o :: os) :=
  .append hx hy

theorem leaf {r : Region} (hr : Spans ts r) : Drawn file ts [.mk (r.span file) []] :=
  .node hr (.none ts)

theorem after (h : Drawn file ts os) (xs : List Token) : Drawn file (xs ++ ts) os :=
  .widen h (List.sublist_append_right xs ts)

theorem skip (h : Drawn file ts os) (t : Token) : Drawn file (t :: ts) os :=
  .widen h (List.sublist_cons_self t ts)

theorem before (h : Drawn file ts os) (xs : List Token) : Drawn file (ts ++ xs) os :=
  .widen h (List.sublist_append_left ts xs)

/-- The tokens below a list of outlines come before those below the list after it. -/
theorem split (h : Drawn file ts (os ++ ps)) :
    ∃ xs ys, ts = xs ++ ys ∧ Drawn file xs os ∧ Drawn file ys ps := by
  generalize hq : os ++ ps = qs at h
  -- the one outline of a node is on either side, the other side is empty
  have hsingle {ts : List Token} {o : Outline} (h : Drawn file ts [o]) {os ps : List Outline}
      (hq : os ++ ps = [o]) : ∃ xs ys, ts = xs ++ ys ∧ Drawn file xs os ∧ Drawn file ys ps := by
    rcases List.append_eq_singleton_iff.1 hq with ⟨rfl, rfl⟩ | ⟨rfl, rfl⟩
    · exact ⟨[], ts, rfl, .nil, h⟩
    · exact ⟨ts, [], (List.append_nil ts).symm, h, .nil⟩
  induction h generalizing os ps with
  | nil =>
    obtain ⟨rfl, rfl⟩ := List.append_eq_nil_iff.1 hq
    exact ⟨[], [], rfl, .nil, .nil⟩
  | widen h hx ih =>
    obtain ⟨xs, ys, rfl, hos, hps⟩ := ih hq
    obtain ⟨xs', ys', rfl, hxs, hys⟩ := List.append_sublist_iff.1 hx
    exact ⟨xs', ys', rfl, hos.widen hxs, hps.widen hys⟩
  | @append xs ys os' ps' hx hy ihx ihy =>
    rcases List.append_eq_append_iff.1 hq with ⟨mid, rfl, rfl⟩ | ⟨mid, rfl, rfl⟩
    · obtain ⟨x₁, x₂, rfl, h₁, h₂⟩ := ihx rfl
      exact ⟨x₁, x₂ ++ ys, List.append_assoc .., h₁, h₂.append hy⟩
    · obtain ⟨y₁, y₂, rfl, h₁, h₂⟩ := ihy rfl
      exact ⟨xs ++ y₁, y₂, (List.append_assoc ..).symm, hx.append h₁, h₂⟩
  | node hr h => exact hsingle (.node hr h) hq
  | join hx hy => exact hsingle (.join hx hy) hq

theorem uncons (h : Drawn file ts (o :: os)) :
    ∃ xs ys, ts = xs ++ ys ∧ Drawn file xs [o] ∧ Drawn file ys os := by
  have happend : Drawn file ts ([o] ++ os) := h
  exact happend.split

/-- The parts of an outline are drawn over the tokens of the whole. -/
theorem parts {l : Span} (h : Drawn file ts [.mk l os]) : Drawn file ts os := by
  generalize hq : [Outline.mk l os] = qs at h
  induction h generalizing l os with
  | nil => cases hq
  | widen h hx ih => exact (ih hq).widen hx
  | @append xs ys _ _ hx hy ihx ihy =>
    rcases List.append_eq_singleton_iff.1 hq.symm with ⟨rfl, rfl⟩ | ⟨rfl, rfl⟩
    · exact (ihy rfl).after xs
    · exact (ihx rfl).widen (List.sublist_append_left xs ys)
  | node hr h =>
    cases hq
    exact h
  | join hx hy ihx ihy =>
    cases hq
    exact (ihx rfl).append (ihy rfl)

theorem withoutParts {l : Span} (h : Drawn file ts [.mk l os]) : Drawn file ts [.mk l []] := by
  generalize hq : [Outline.mk l os] = qs at h
  induction h generalizing l os with
  | nil => cases hq
  | widen h hx ih => exact (ih hq).widen hx
  | @append xs ys _ _ hx hy ihx ihy =>
    rcases List.append_eq_singleton_iff.1 hq.symm with ⟨rfl, rfl⟩ | ⟨rfl, rfl⟩
    · exact (ihy rfl).after xs
    · exact (ihx rfl).widen (List.sublist_append_left xs ys)
  | node hr h =>
    cases hq
    exact .leaf hr
  | join hx hy ihx ihy =>
    cases hq
    exact .join (ihx rfl) (ihy rfl)

end Drawn

-- Order

/-- The tokens of a region lie between its first one and its last one. -/
theorem Spans.bounds {ts : List Token} {r : Region} (h : Spans ts r) (hts : Ordered ts) {t : Token}
    (ht : t ∈ ts) :
    r.start.point.le t.region.start.point ∧ t.region.stop.point.le r.stop.point := by
  obtain ⟨a, ha, -, hstart⟩ := h.first
  obtain ⟨b, hb, hstop⟩ := h.last
  rw [← hstart, ← hstop]
  constructor
  · obtain ⟨rest, rfl⟩ := List.head?_eq_some_iff.1 ha
    rcases List.mem_cons.1 ht with rfl | ht
    · exact Point.le_refl _
    · exact ((List.pairwise_cons.1 hts.precedes).1 t ht).start
  · obtain ⟨init, rfl⟩ := List.getLast?_eq_some_iff.1 hb
    rcases List.mem_append.1 ht with ht | ht
    · exact ((List.pairwise_append.1 hts.precedes).2.2 t ht b (List.mem_singleton.2 rfl)).stop
    · exact List.mem_singleton.1 ht ▸ Point.le_refl _

/-- A span that reaches from a real token to one that is not before it. -/
def Anchored (file : Option String) (ts : List Token) (s : Span) : Prop :=
  ∃ t ∈ ts, ∃ u ∈ ts, isSynthetic t.kind = false ∧ t.region.start.point.le u.region.stop.point ∧
    s = Region.span file ⟨t.region.start, u.region.stop⟩

theorem Anchored.mono {file : Option String} {ts us : List Token} {s : Span}
    (h : Anchored file ts s) (hts : ts ⊆ us) : Anchored file us s := by
  obtain ⟨t, ht, u, hu, hreal, hle, rfl⟩ := h
  exact ⟨t, hts ht, u, hts hu, hreal, hle, rfl⟩

/-- Outlines that nest and follow each other, with their ends at tokens. -/
structure Stands (file : Option String) (ts : List Token) (os : List Outline) : Prop where
  nests : ∀ o ∈ os, o.Nests
  inOrder : os.Pairwise fun o p => o.loc.before p.loc
  anchored : ∀ o ∈ os, Anchored file ts o.loc

namespace Stands

variable {file : Option String} {xs ys ts : List Token} {os ps : List Outline}

theorem append (hx : Stands file xs os) (hy : Stands file ys ps) (hts : Ordered (xs ++ ys)) :
    Stands file (xs ++ ys) (os ++ ps) where
  nests := List.forall_mem_append.2 ⟨hx.nests, hy.nests⟩
  inOrder := by
    refine List.pairwise_append.2 ⟨hx.inOrder, hy.inOrder, fun o ho p hp => ?_⟩
    obtain ⟨_, _, u, hu, _, _, hloc⟩ := hx.anchored o ho
    obtain ⟨t, ht, _, _, hreal, _, hloc'⟩ := hy.anchored p hp
    rw [hloc, hloc']
    exact ((List.pairwise_append.1 hts.precedes).2.2 u hu t ht).apart hreal
  anchored := List.forall_mem_append.2
    ⟨fun o ho => (hx.anchored o ho).mono (List.subset_append_left xs ys),
      fun p hp => (hy.anchored p hp).mono (List.subset_append_right xs ys)⟩

theorem good (h : Stands file ts os) {o : Outline} (ho : o ∈ os) : o.loc.good :=
  (h.nests o ho).good

theorem node {r : Region} (h : Stands file ts os) (hr : Spans ts r) (hts : Ordered ts) :
    Stands file ts [.mk (r.span file) os] := by
  obtain ⟨a, ha, hreal, hstart⟩ := hr.first
  obtain ⟨b, hb, hstop⟩ := hr.last
  have ha : a ∈ ts := List.mem_of_mem_head? ha
  have hb : b ∈ ts := List.mem_of_getLast? hb
  obtain ⟨hline, hcolumn, hforward⟩ := hts.placed a ha
  have hle : r.start.point.le r.stop.point := by
    refine Point.le_trans (hstart ▸ hforward) (hr.bounds hts ha).2
  have hgood : (r.span file).good :=
    (Region.good_span file r).2 ⟨hstart ▸ hline, hstart ▸ hcolumn⟩
  have hwithin : ∀ o ∈ os, o.loc.within (r.span file) := by
    intro o ho
    have hgoodo := h.good ho
    obtain ⟨t, ht, u, hu, -, -, hloc⟩ := h.anchored o ho
    rw [hloc] at hgoodo ⊢
    exact Span.within_iff.2 ⟨hgoodo, hgood, rfl, (hr.bounds hts ht).1, (hr.bounds hts hu).2⟩
  refine ⟨?_, List.pairwise_singleton .., ?_⟩
  · exact List.forall_mem_singleton.2 ⟨hgood, hle, hwithin, h.inOrder, h.nests⟩
  · refine List.forall_mem_singleton.2 ⟨a, ha, b, hb, hreal, ?_, ?_⟩
    · exact hstart ▸ hstop ▸ hle
    · exact hstart ▸ hstop ▸ rfl

theorem join {l l' : Span} (hx : Stands file xs [.mk l os]) (hy : Stands file ys [.mk l' ps])
    (hts : Ordered (xs ++ ys)) : Stands file (xs ++ ys) [.mk (l.cover l') (os ++ ps)] := by
  have hboth := hx.append hy hts
  have hl := hx.nests _ (List.mem_singleton.2 rfl)
  have hl' := hy.nests _ (List.mem_singleton.2 rfl)
  have hbefore : l.before l' := (List.pairwise_cons.1 hboth.inOrder).1 _ (List.mem_singleton.2 rfl)
  obtain ⟨t, ht, u, hu, hreal, hle, rfl⟩ := hx.anchored _ (List.mem_singleton.2 rfl)
  obtain ⟨t', ht', u', hu', -, hle', rfl⟩ := hy.anchored _ (List.mem_singleton.2 rfl)
  rw [Region.cover_span file hl.good hl'.good]
  let whole : Region := ⟨t.region.start, u'.region.stop⟩
  have hstart : (Region.span file ⟨t.region.start, u.region.stop⟩).good := hl.good
  have hpositive := (Region.good_span file _).1 hstart
  have hgood : (whole.span file).good := (Region.good_span file whole).2 hpositive
  have hleft : (Region.span file ⟨t.region.start, u.region.stop⟩).within (whole.span file) :=
    Span.within_iff.2 ⟨hl.good, hgood, rfl, Point.le_refl _, Point.le_trans hbefore hle'⟩
  have hright : (Region.span file ⟨t'.region.start, u'.region.stop⟩).within (whole.span file) :=
    Span.within_iff.2 ⟨hl'.good, hgood, rfl, Point.le_trans hle hbefore, Point.le_refl _⟩
  have hforward : whole.start.point.le whole.stop.point :=
    Point.le_trans hle (Point.le_trans hbefore hle')
  refine ⟨?_, List.pairwise_singleton .., ?_⟩
  · refine List.forall_mem_singleton.2 ⟨hgood, hforward, ?_, ?_, ?_⟩
    · exact List.forall_mem_append.2 ⟨fun o ho => Span.within_trans (hl.within o ho) hleft,
        fun p hp => Span.within_trans (hl'.within p hp) hright⟩
    · refine List.pairwise_append.2 ⟨hl.inOrder, hl'.inOrder, fun o ho p hp => ?_⟩
      exact Span.before_of_within (hl.within o ho) (hl'.within p hp) hbefore
    · exact List.forall_mem_append.2 ⟨hl.nests, hl'.nests⟩
  · exact List.forall_mem_singleton.2 ⟨t, List.mem_append_left ys ht, u',
      List.mem_append_right xs hu', hreal, hforward, rfl⟩

end Stands

theorem Drawn.stands {file : Option String} {ts : List Token} {os : List Outline}
    (h : Drawn file ts os) (hts : Ordered ts) : Stands file ts os := by
  induction h with
  | nil => exact ⟨by simp, .nil, by simp⟩
  | widen h hx ih =>
    have hstands := ih (hts.sublist hx)
    exact ⟨hstands.nests, hstands.inOrder, fun o ho => (hstands.anchored o ho).mono hx.subset⟩
  | @append xs ys _ _ hx hy ihx ihy =>
    exact (ihx (hts.sublist (List.sublist_append_left xs ys))).append
      (ihy (hts.sublist (List.sublist_append_right xs ys))) hts
  | node hr h ih => exact (ih hts).node hr hts
  | @join xs ys _ _ _ _ hx hy ihx ihy =>
    exact (ihx (hts.sublist (List.sublist_append_left xs ys))).join
      (ihy (hts.sublist (List.sublist_append_right xs ys))) hts

end TypeLens.Surface
