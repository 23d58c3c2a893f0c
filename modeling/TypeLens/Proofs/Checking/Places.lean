import TypeLens.Proofs.Checking.Evolution
import TypeLens.Proofs.Operators.Fixity
import TypeLens.Proofs.Surface.Groups
import TypeLens.Proofs.Surface.Nesting
import TypeLens.Proofs.Typed.Places

/-!
The nodes of a typed tree stand in the text as the nodes do that they come from. Operators that are
put in order by their fixities still nest, since each tree of operands covers the text from its first
operand to its last one.
-/

namespace TypeLens

namespace Surface

theorem TypeExpr.loc_outline (t : TypeExpr) : t.outline.loc = t.loc := by cases t <;> rfl

theorem Pat.loc_outline (p : Pat) : p.outline.loc = p.loc := by cases p <;> rfl

theorem Expr.loc_outline (e : Expr) : e.outline.loc = e.loc := by cases e <;> rfl

end Surface

namespace Check

open Typed (Fills Node)

variable {env : Env}

/-- What is inferred stands within a span. -/
abbrev Infers (s : Span) (act : CheckM Inferred) : Prop := Returns act fun r => Fills [s] r.1.nodes

-- Patterns

mutual

theorem fills_checkPat (env : Env) (group : Bound) : ∀ (p : Surface.Pat) (t : Ty) (b : Bound),
    p.outline.Nests → Returns ((checkPat env group p t).run b) fun r => Fills [p.loc] r.1.nodes
  | .var n l, t, b, h => by
    unfold checkPat
    refine .skipPat fun _ _ => .skipPat fun _ _ => .skipPat fun _ _ => .skipPat fun _ _ => ?_
    exact .purePat (.leaf h.good (Typed.standsAt_loc _))
  | .wild l, t, b, h => by
    unfold checkPat
    exact .purePat (.leaf h.good (Typed.standsAt_loc _))
  | .lit v l, t, b, h => by
    unfold checkPat
    exact .skipPat fun _ _ => .purePat (.leaf h.good (Typed.standsAt_loc _))
  | .par p l, t, b, h => by
    unfold checkPat
    have hp : p.outline.Nests := h.nests _ (List.mem_singleton.2 rfl)
    refine .bindPat (fills_checkPat env group p t b hp) fun r hr => .purePat ?_
    rw [← p.loc_outline] at hr
    exact .node h hr (Typed.standsAt_loc _)
  | .con n ps l, t, b, h => by
    have hleaf (t : Ty) : Fills [l] [.pat (.wild t l)] := .leaf h.good (Typed.standsAt_loc _)
    unfold checkPat
    split
    · exact .skipPat fun _ _ => .skipPat fun _ _ => .purePat (hleaf _)
    split
    · refine .skipPat fun ts b => .skipPat fun _ b => ?_
      refine .bindPat (fills_checkPats env group ps _ b h.parts_inOrder) fun r hr => .purePat ?_
      exact .node h hr (Typed.standsAt_loc _)
    · exact .skipPat fun _ _ => .purePat (hleaf _)

theorem fills_checkPats (env : Env) (group : Bound) :
    ∀ (ps : List Surface.Pat) (ts : List Ty) (b : Bound), Outline.InOrder (Surface.Pat.outlines ps) →
    Returns ((checkPats env group ps ts).run b) fun r =>
      Fills ((Surface.Pat.outlines ps).map Outline.loc) (Typed.Pat.nodesOf r.1)
  | p :: ps, t :: ts, b, h => by
    have hp : p.outline.Nests := h.nests _ (List.mem_cons_self ..)
    have hps : Outline.InOrder (Surface.Pat.outlines ps) := h.sublist (List.sublist_cons_self ..)
    unfold checkPats
    refine .bindPat (fills_checkPat env group p t b hp) fun r hr => ?_
    refine .bindPat (fills_checkPats env group ps ts _ hps) fun r' hr' => .purePat ?_
    rw [← p.loc_outline] at hr
    exact .cons h hr hr'
  | [], _, b, _ => by
    unfold checkPats
    exact .purePat (.nil _)
  | _ :: _, [], b, _ => by
    unfold checkPats
    exact .purePat (.nil _)

end

-- Names

theorem fills_occurrence (h : Typed.Head) (occ : String) {loc : Span} (hl : loc.good) :
    Infers loc (occurrence h occ loc) := by
  unfold occurrence
  dsimp only
  split
  · exact fun _ => .leaf hl (Typed.standsAt_loc _)
  · refine .skip fun _ => .skip fun _ => .skip fun _ => fun _ => ?_
    exact .around (.hidden (.nil []) rfl) hl (Typed.standsAt_loc _) (List.forall_mem_nil _)

theorem fills_unknownName (env : Env) (occ : String) {loc : Span} (hl : loc.good) :
    Infers loc (unknownName env occ loc) :=
  .skip fun _ => .skip fun _ => fun _ => .leaf hl (Typed.standsAt_loc _)

theorem fills_inferVar (env : Env) (occ : String) {loc : Span} (hl : loc.good) :
    Infers loc (inferVar env occ loc) := by
  unfold inferVar
  split
  · exact fills_occurrence _ occ hl
  split
  · exact .skip fun _ => fills_unknownName env occ hl
  split
  · exact fills_occurrence _ occ hl
  · exact fills_occurrence _ occ hl
  · exact fills_unknownName env occ hl

theorem fills_inferCon (env : Env) (occ : String) {loc : Span} (hl : loc.good) :
    Infers loc (inferCon env occ loc) := by
  unfold inferCon
  split
  · exact .skip fun _ => fills_unknownName env occ hl
  split
  · exact fills_occurrence _ occ hl
  · exact .skip fun _ => fills_unknownName env occ hl

theorem fills_inferOp (env : Env) (op : Surface.OpRef) (hl : op.loc.good) :
    Infers op.loc (inferOp env op) := by
  unfold inferOp
  split
  · exact fills_inferCon env op.name hl
  · exact fills_inferVar env op.name hl

-- Operators

namespace PartTree

/-- The spans of the operands and operators of a tree, from left to right. -/
def spans : PartTree → List Span
  | .leaf p => [p.loc]
  | .node l op r => spans l ++ op.loc :: spans r

/-- The outline of a tree, whose operands are leaves. -/
def outline : PartTree → Outline
  | .leaf p => .mk p.loc []
  | .node l op r =>
    .mk ((PartTree.loc l).cover (PartTree.loc r)) [outline l, .mk op.loc [], outline r]

theorem loc_outline (t : PartTree) : (outline t).loc = PartTree.loc t := by cases t <;> rfl

/-- The tokens of a row are those of its tree, in order. -/
theorem spans_eq (t : PartTree) :
    spans t = t.first.loc :: t.rest.flatMap fun p => [p.1.loc, p.2.loc] := by
  induction t with
  | leaf p => rfl
  | node l op r ihl ihr =>
    rw [spans, ihl, ihr, OpTree.first, OpTree.rest]
    simp

end PartTree

/-- Good spans of one file, one after the other. -/
structure Chain (file : Option String) (ss : List Span) : Prop where
  good : ∀ s ∈ ss, s.good
  forward : ∀ s ∈ ss, s.start.le s.stop
  file : ∀ s ∈ ss, s.file = file
  inOrder : ss.Pairwise fun s t => s.before t

theorem Chain.sublist {file : Option String} {ss ts : List Span} (h : Chain file ts)
    (hs : ss.Sublist ts) : Chain file ss :=
  ⟨fun s hmem => h.good s (hs.subset hmem), fun s hmem => h.forward s (hs.subset hmem),
    fun s hmem => h.file s (hs.subset hmem), h.inOrder.sublist hs⟩

/-- A tree nests and covers its operands and operators, which are a chain. -/
structure PartTree.Covers (t : PartTree) (file : Option String) : Prop where
  nests : (outline t).Nests
  file : (PartTree.loc t).file = file
  first : ∃ s ∈ spans t, (PartTree.loc t).start = s.start
  last : ∃ s ∈ spans t, (PartTree.loc t).stop = s.stop

theorem PartTree.covers {file : Option String} (t : PartTree) (h : Chain file (spans t)) :
    Covers t file := by
  induction t with
  | leaf p =>
    have hmem : p.loc ∈ spans (.leaf p) := List.mem_singleton.2 rfl
    exact ⟨⟨h.good _ hmem, h.forward _ hmem, by simp, .nil, by simp⟩, h.file _ hmem,
      ⟨_, hmem, rfl⟩, ⟨_, hmem, rfl⟩⟩
  | node l op r ihl ihr =>
    obtain ⟨hinner, hright, hcross⟩ := List.pairwise_append.1 h.inOrder
    obtain ⟨hop, -⟩ := List.pairwise_cons.1 hright
    have hl := ihl (h.sublist (List.sublist_append_left ..))
    have hr := ihr (h.sublist ((List.sublist_cons_self ..).trans (List.sublist_append_right ..)))
    obtain ⟨a, ha, hstart⟩ := hl.first
    obtain ⟨b, hb, hstop⟩ := hl.last
    obtain ⟨c, hc, hstart'⟩ := hr.first
    obtain ⟨d, hd, hstop'⟩ := hr.last
    have hmem : op.loc ∈ spans (.node l op r) := by simp [spans]
    have hleaf : (Outline.mk op.loc []).Nests :=
      ⟨h.good _ hmem, h.forward _ hmem, by simp, .nil, by simp⟩
    have hlop : (PartTree.loc l).before op.loc := by
      rw [Span.before, hstop]
      exact hcross b hb op.loc (List.mem_cons_self ..)
    have hlr : (PartTree.loc l).before (PartTree.loc r) := by
      rw [Span.before, hstop, hstart']
      exact hcross b hb c (List.mem_cons_of_mem _ hc)
    have hopr : op.loc.before (PartTree.loc r) := by
      rw [Span.before, hstart']
      exact hop c hc
    have horder : Outline.InOrder [outline l, .mk op.loc [], outline r] := by
      refine ⟨by simpa using ⟨hl.nests, hleaf, hr.nests⟩, ?_⟩
      have hmid : (Outline.mk op.loc []).loc = op.loc := rfl
      simpa [loc_outline, hmid] using ⟨⟨hlop, hlr⟩, hopr⟩
    have hgood := hl.nests.good
    have hgood' := hr.nests.good
    have hnests := Outline.nests_cover horder
    simp only [loc_outline] at hgood hgood' hnests
    refine ⟨hnests ((h.file _ hmem).trans hl.file.symm) (hr.file.trans hl.file.symm), ?_, ?_, ?_⟩
    · exact (Span.file_cover hgood hgood').trans hl.file
    · exact ⟨a, by simp [spans, ha], (Span.start_cover hgood hgood').trans hstart⟩
    · exact ⟨d, by simp [spans, hd], (Span.stop_cover hgood hgood').trans hstop'⟩

theorem fills_inferTree {t : PartTree} (ht : (PartTree.outline t).Nests)
    (h : ∀ p ∈ t.operands, Infers p.loc p.infer) : Infers (PartTree.loc t) (inferTree env t) := by
  induction t with
  | leaf p => exact h p (List.mem_singleton.2 rfl)
  | node l op r ihl ihr =>
    have hl : (PartTree.outline l).Nests := ht.nests _ (by simp [PartTree.outline, Outline.parts])
    have hop : (Outline.mk op.loc []).Nests :=
      ht.nests _ (by simp [PartTree.outline, Outline.parts])
    have hr : (PartTree.outline r).Nests := ht.nests _ (by simp [PartTree.outline, Outline.parts])
    obtain ⟨hleft, hright⟩ := List.forall_mem_append.1 h
    unfold inferTree
    refine .bind (ihl hl hleft) fun l' hl' => .bind (fills_inferOp env op hop.good) fun op' hop' => ?_
    refine .bind (ihr hr hright) fun r' hr' => .skip fun _ => .skip fun _ => ?_
    have hwhole : Fills [PartTree.loc (.node l op r)]
        (Typed.Expr.opApp l'.1 op'.1 r'.1
          ((PartTree.loc l).cover (PartTree.loc r))).nodes := by
      rw [← PartTree.loc_outline] at hl' hr'
      have hinner := Fills.cons ht.parts_inOrder hl'
        (.cons (ht.parts_inOrder.sublist (List.sublist_cons_self ..)) hop' hr')
      rw [Typed.Expr.nodes, List.append_assoc]
      exact .node ht hinner (Typed.standsAt_loc _)
    split
    · exact .skip fun _ => .skip fun _ => fun _ => hwhole
    · exact .skip fun _ => fun _ => hwhole

/-- The parts of an outline are a chain. -/
theorem chain_parts {l : Span} {os : List Outline} (h : (Outline.mk l os).Nests) :
    Chain l.file (os.map Outline.loc) where
  good := List.forall_mem_map.2 fun o ho => (h.nests o ho).good
  forward := List.forall_mem_map.2 fun o ho => (h.nests o ho).forward
  file := List.forall_mem_map.2 fun o ho => (Span.within_iff.1 (h.within o ho)).2.2.1
  inOrder := List.pairwise_map.2 h.inOrder

/-- A row stands within its own span, whatever its fixities are. -/
theorem fills_inferRow {first : Part} {rest : List (Surface.OpRef × Part)} {l : Span}
    {os : List Outline} (hl : (Outline.mk l os).Nests)
    (hos : os.map Outline.loc = first.loc :: rest.flatMap fun p => [p.1.loc, p.2.loc])
    (hfirst : Infers first.loc first.infer) (hrest : ∀ p ∈ rest, Infers p.2.loc p.2.infer) :
    Infers l (inferRow env first rest) := by
  unfold inferRow
  dsimp only
  generalize hr : OpTree.resolve (opFixity env) first rest = r
  have hrow := OpTree.first_rest_resolve (opFixity env) first rest
  have hoperands := OpTree.operands_resolve (opFixity env) first rest
  rw [hr] at hrow hoperands
  have hspans : PartTree.spans r.tree = os.map Outline.loc := by
    rw [PartTree.spans_eq, hrow.1, hrow.2, hos]
  have hcovers := PartTree.covers r.tree (hspans ▸ chain_parts hl)
  have hinner : ∀ s ∈ PartTree.spans r.tree, s.within l := by
    rw [hspans]
    exact List.forall_mem_map.2 hl.within
  have hwithin : (PartTree.loc r.tree).within l := by
    obtain ⟨s, hs, hstart⟩ := hcovers.first
    obtain ⟨t, ht, hstop⟩ := hcovers.last
    have hgood := hcovers.nests.good
    rw [PartTree.loc_outline] at hgood
    obtain ⟨-, -, -, hle, -⟩ := Span.within_iff.1 (hinner s hs)
    obtain ⟨-, -, -, -, hle'⟩ := Span.within_iff.1 (hinner t ht)
    exact Span.within_iff.2 ⟨hgood, hl.good, hcovers.file, hstart ▸ hle, hstop ▸ hle'⟩
  refine .skip fun _ s => ?_
  refine (fills_inferTree hcovers.nests ?_ s).widen_singleton (List.forall_mem_singleton.2 hwithin)
  rw [hoperands]
  exact List.forall_mem_cons.2 ⟨hfirst, List.forall_mem_map.2 hrest⟩

-- Equations

/-- The parts of an equation nest, and its right-hand side stands where it should. -/
structure Row.Stands (r : Row) : Prop where
  nests : ∃ o : Outline, o.loc = r.rhsLoc ∧
    (Outline.mk r.loc (Surface.Pat.outlines r.pats ++ [o])).Nests
  rhs : ∀ env, Infers r.rhsLoc (r.rhs env)

theorem fills_checkRow {r : Row} (h : r.Stands) (argTys : List Ty) (resTy : Ty) :
    Returns (checkRow env argTys resTy r) fun m => Fills [r.loc] (Typed.Match.nodesOf [m]) := by
  obtain ⟨o, ho, hl⟩ := h.nests
  have hpats : Outline.InOrder (Surface.Pat.outlines r.pats) :=
    hl.parts_inOrder.sublist (List.sublist_append_left ..)
  refine .bind (fills_checkPats env [] r.pats argTys [] hpats) fun ps hps => ?_
  refine .bind (h.rhs _) fun e he => .skip fun _ => .pure ?_
  rw [← ho] at he
  have hinner := Fills.beside hl.parts_inOrder hps he
  rw [Typed.Match.nodesOf, Typed.Match.nodesOf, List.append_nil]
  exact .node hl hinner (Typed.standsAt_loc _)

/-- Equations one after the other. -/
theorem fills_rows {rs : List Row} (h : ∀ r ∈ rs, r.Stands)
    (horder : rs.Pairwise fun r r' => r.loc.before r'.loc) (argTys : List Ty) (resTy : Ty) :
    Returns (rs.mapM (checkRow env argTys resTy)) fun ms =>
      Fills (rs.map Row.loc) (Typed.Match.nodesOf ms) := by
  intro s
  have hrow (r : Row) (hr : r ∈ rs) : Returns (checkRow env argTys resTy r)
      fun m => Fills [r.loc] (Typed.Match.nodesOf [m]) := fills_checkRow (h r hr) argTys resTy
  have hrows := Returns.mapM hrow s
  rw [Typed.nodesOf_rows_eq, List.flatMap_map]
  exact .flatMap hrows (horder.imp .inl)

theorem fills_checkGroup {first : Row} {rest : List Row} (h : ∀ r ∈ first :: rest, r.Stands)
    (horder : (first :: rest).Pairwise fun r r' => r.loc.before r'.loc) (expected : Ty) :
    Returns (checkGroup env expected first rest) fun g =>
      Fills ((first :: rest).map Row.loc) g.nodes := by
  refine .skip fun ts => .skip fun t => .skip fun _ => ?_
  exact .bind (fills_rows h horder ts t) fun ms hms => .pure (hms.hidden rfl)

-- Bindings

/-- The equations of a function follow each other within it. -/
structure FunJob.Stands (j : FunJob) : Prop where
  good : j.loc.good
  rows : ∀ r ∈ j.first :: j.rest, r.Stands
  inOrder : (j.first :: j.rest).Pairwise fun r r' => r.loc.before r'.loc
  within : ∀ r ∈ j.first :: j.rest, r.loc.within j.loc

def Job.Stands : Job → Prop
  | .fn j => j.Stands
  | .pat p rhs l =>
    ∃ o : Outline, (Outline.mk l [p.outline, o]).Nests ∧ ∀ env, Infers o.loc (rhs env)

theorem FunJob.Stands.fills {j : FunJob} (h : j.Stands) {g : Typed.MatchGroup} {i : Typed.Ident}
    (hg : Fills ((j.first :: j.rest).map Row.loc) g.nodes) :
    Fills [j.loc] (Typed.Bind.fn i g j.loc).nodes :=
  hg.around h.good (Typed.standsAt_loc _) (List.forall_mem_map.2 h.within)

theorem fills_check {j : Job} (h : j.Stands) (group : Bound) :
    Returns (j.check env group) fun b => Fills [j.loc] b.nodes := by
  cases j with
  | fn j =>
    have hfn (i : Typed.Ident) : Returns
        (do return Typed.Bind.fn i (← checkGroup env i.scheme.body j.first j.rest) j.loc)
        fun b => Fills [j.loc] b.nodes :=
      .bind (fills_checkGroup h.rows h.inOrder _) fun g hg => .pure (FunJob.Stands.fills h hg)
    unfold Job.check
    dsimp only
    split
    · exact hfn _
    · exact .skip fun t => .skip fun i => hfn i
  | pat p rhs l =>
    obtain ⟨o, hl, hrhs⟩ := h
    have hp : p.outline.Nests := hl.nests _ (List.mem_cons_self ..)
    refine .bind (hrhs env) fun e he => ?_
    refine .bind (fills_checkPat env group p _ [] hp) fun r hr => .pure ?_
    rw [← p.loc_outline] at hr
    exact .node hl (.cons hl.parts_inOrder hr he) (Typed.standsAt_loc _)

theorem Returns.collecting {α : Type} {act : CheckM α} {P : α → Prop} (h : Returns act P) :
    Returns (collecting act) fun r => P r.1 :=
  .skip fun _ => .skip fun _ => .bind h fun _ ha => .skip fun _ => .skip fun _ => .pure ha

/-- Bindings that have no text in common. -/
structure Spread (js : List Job) : Prop where
  stands : ∀ j ∈ js, j.Stands
  apart : js.Pairwise fun j j' => j.loc.Apart j'.loc

namespace Spread

variable {js : List Job}

theorem sublist {js' : List Job} (h : Spread js) (hs : js'.Sublist js) : Spread js' :=
  ⟨fun j hj => h.stands j (hs.subset hj), h.apart.sublist hs⟩

theorem perm {js' : List Job} (h : Spread js) (hp : js'.Perm js) : Spread js' :=
  ⟨fun j hj => h.stands j (hp.subset hj), hp.symm.pairwise h.apart Span.Apart.symm⟩

end Spread

/-- A group stands where its bindings stand; it has no place of its own. -/
theorem fills_inferGroup {js : List Job} (h : Spread js) (nameOf : String → CheckM Name) :
    Returns (inferGroup env nameOf js) fun r => Fills (js.map Job.loc) r.1.nodes := by
  have hopen : Returns (openGroup env nameOf js) fun g =>
      Fills (js.map Job.loc) (Typed.Bind.nodesOf g.binds) := by
    refine .skip fun st => .skip fun monos => ?_
    refine .bind (Returns.mapM fun j hj => fills_check (h.stands j hj) monos).collecting ?_
    intro r hr
    refine .pure ?_
    rw [Typed.nodesOf_binds_eq, List.flatMap_map]
    exact .flatMap hr h.apart
  refine .bind hopen fun g hg s => ?_
  exact hg.hidden rfl

theorem fills_inferGroups {gs : List (List Job)} (h : Spread gs.flatten) :
    Returns (inferGroups env gs) fun r =>
      Fills (gs.flatten.map Job.loc) (Typed.Bind.nodesOf r.1) := by
  induction gs generalizing env with
  | nil => exact .pure (.nil _)
  | cons g gs ih =>
    rw [List.flatten_cons] at h
    have hg : Returns (inferGroup env (localName env) g) fun r =>
        Fills (g.map Job.loc) r.1.nodes :=
      fills_inferGroup (h.sublist (List.sublist_append_left ..)) _
    refine .bind hg fun r hr => ?_
    refine .bind (ih (h.sublist (List.sublist_append_right ..))) fun r' hr' => .pure ?_
    rw [List.flatten_cons, List.map_append]
    refine hr.append hr' (List.forall_mem_map.2 fun j hj => List.forall_mem_map.2 fun j' hj' => ?_)
    exact (List.pairwise_append.1 h.apart).2.2 j hj j' hj'

theorem fills_inferLocals {js : List (Surface.Dependencies × Job)} (h : Spread (js.map (·.2))) :
    Returns (inferLocals env js) fun r =>
      Fills ((js.map (·.2)).map Job.loc) (Typed.Bind.nodesOf r.1) := by
  have hperm : (Surface.groupsOf js []).flatten.Perm (js.map (·.2)) :=
    Surface.flatten_groupsOf_perm js []
  refine .skip fun _ s => ?_
  exact (fills_inferGroups (h.perm hperm) s).mono (List.map_subset _ hperm.subset)

theorem fills_checkSigned {j : FunJob} (h : j.Stands) (poly : Typed.Ident) :
    Returns (checkSigned env poly j) fun b => Fills [j.loc] b.nodes := by
  refine .skip fun givens => ?_
  refine .bind (fills_checkGroup h.rows h.inOrder _).collecting fun r hr => ?_
  refine .skip fun st => .skip fun _ => .pure ?_
  have hfn := h.fills (i := ⟨poly.name, .mono poly.scheme.body⟩) hr
  refine Fills.hidden ?_ rfl
  rw [Typed.nodesOf_binds_eq, List.map_singleton, List.flatMap_singleton]
  exact hfn

-- Expressions, by recursion on the tree

theorem fills_inferElems {ps : List Part} (h : ∀ p ∈ ps, Infers p.loc p.infer)
    (horder : ps.Pairwise fun p p' => p.loc.before p'.loc) (t : Ty) :
    Returns (inferElems t ps) fun es => Fills (ps.map Part.loc) (Typed.Expr.nodesOf es) := by
  have hall : Returns (inferElems t ps) fun es =>
      List.Forall₂ (fun p e => Fills [p.loc] (Typed.Expr.nodes e)) ps es := by
    induction ps with
    | nil => exact .pure .nil
    | cons p ps ih =>
      obtain ⟨hp, hps⟩ := List.forall_mem_cons.1 h
      refine .bind hp fun e he => .skip fun _ => ?_
      exact .bind (ih hps (List.pairwise_cons.1 horder).2) fun es hes => .pure (.cons he hes)
  intro s
  rw [Typed.nodesOf_exprs_eq, List.flatMap_map]
  exact .flatMap (hall s) (horder.imp .inl)

section

open Surface

theorem loc_parts (env : Env) (es : List Expr) :
    (parts env es).map Part.loc = (Expr.outlines es).map Outline.loc := by
  induction es with
  | nil => rfl
  | cons e es ih => rw [parts, Expr.outlines, List.map_cons, List.map_cons, ih, e.loc_outline]

theorem loc_operands (env : Env) (es : List Operand) :
    (operands env es).flatMap (fun p => [p.1.loc, p.2.loc]) =
      (Operand.outlines es).map Outline.loc := by
  induction es with
  | nil => rfl
  | cons o es ih =>
    obtain ⟨op, e⟩ := o
    rw [operands, Operand.outlines, List.flatMap_cons, ih, List.map_cons, List.map_cons,
      e.loc_outline]
    rfl

theorem loc_altRows (as : List Alt) :
    (altRows as).map Row.loc = (Alt.outlines as).map Outline.loc := by
  induction as with
  | nil => rfl
  | cons a as ih =>
    obtain ⟨p, e, l⟩ := a
    rw [altRows, Alt.outlines, List.map_cons, List.map_cons, ih]
    rfl

theorem loc_matchRow (m : Match) : (matchRow m).loc = m.outline.loc := by
  cases m
  rfl

theorem loc_matchRows (ms : List Match) :
    (matchRows ms).map Row.loc = (Match.outlines ms).map Outline.loc := by
  induction ms with
  | nil => rfl
  | cons m ms ih =>
    rw [matchRows, Match.outlines, List.map_cons, List.map_cons, ih, loc_matchRow]

theorem loc_funJob (b : FunBind) : (funJob b).loc = b.outline.loc := by
  cases b
  rfl

theorem loc_job (b : Binding) : (job b).loc = b.outline.loc := by
  obtain b | b := b
  · exact loc_funJob b
  · cases b
    rfl

theorem loc_jobs (bs : List Binding) :
    ((jobs bs).map (·.2)).map Job.loc = (Binding.outlines bs).map Outline.loc := by
  induction bs with
  | nil => rfl
  | cons b bs ih =>
    rw [jobs, Binding.outlines, List.map_cons, List.map_cons, List.map_cons, ih, loc_job]

/-- An equation whose right-hand side is an expression. -/
theorem stands_row {ps : List Pat} {e : Expr} {l : Span}
    (h : (Outline.mk l (Pat.outlines ps ++ [e.outline])).Nests)
    (he : ∀ env, e.outline.Nests → Infers e.outline.loc (infer env e)) :
    Row.Stands ⟨ps, l, e.loc, fun env => infer env e⟩ := by
  refine ⟨⟨e.outline, e.loc_outline, h⟩, fun env => ?_⟩
  rw [← e.loc_outline]
  exact he env (h.nests _ (List.mem_append_right _ (List.mem_singleton.2 rfl)))

mutual

/-- What is inferred of an expression stands within it. -/
theorem fills_infer : ∀ (e : Expr) (env : Env), e.outline.Nests →
    Infers e.outline.loc (infer env e)
  | .var n l, env, h => by
    unfold infer
    exact fills_inferVar env n h.good
  | .con n l, env, h => by
    unfold infer
    exact fills_inferCon env n h.good
  | .lit v l, env, h => by
    unfold infer
    exact fun _ => .leaf h.good (Typed.standsAt_loc _)
  | .app f a l, env, h => by
    have hf : f.outline.Nests := h.nests _ (by simp [Expr.outline, Outline.parts])
    have ha : a.outline.Nests := h.nests _ (by simp [Expr.outline, Outline.parts])
    unfold infer
    refine .bind (fills_infer f env hf) fun f' hf' => .bind (fills_infer a env ha) fun a' ha' => ?_
    have hwhole : Fills [l] (Typed.Expr.app f'.1 a'.1 l).nodes :=
      .node h (.cons h.parts_inOrder hf' ha') (Typed.standsAt_loc _)
    refine .skip fun t => ?_
    split
    · exact .skip fun _ => fun _ => hwhole
    · exact .skip fun _ => .skip fun _ => fun _ => hwhole
  | .row e es l, env, h => by
    have he : e.outline.Nests := h.nests _ (List.mem_cons_self ..)
    have hes : ∀ o ∈ Operand.outlines es, o.Nests :=
      fun o ho => h.nests o (List.mem_cons_of_mem _ ho)
    unfold infer
    refine fills_inferRow h ?_ ?_ (infers_operands env es hes)
    · rw [loc_operands, List.map_cons, e.loc_outline]
    · rw [← e.loc_outline]
      exact fills_infer e env he
  | .lambda ps e l, env, h => by
    unfold infer
    refine .skip fun t => ?_
    refine .bind (fills_checkGroup (List.forall_mem_singleton.2 ?_) (List.pairwise_singleton ..) t)
      fun g hg => fun _ => ?_
    · exact stands_row h (fills_infer e)
    · exact hg.around h.good (Typed.standsAt_loc _)
        (List.forall_mem_singleton.2 (Span.within_refl h.good))
  | .letIn bs e l, env, h => by
    have horder : Outline.InOrder (Binding.outlines bs ++ [e.outline]) := h.parts_inOrder
    have hbs : Outline.InOrder (Binding.outlines bs) :=
      horder.sublist (List.sublist_append_left ..)
    have he : e.outline.Nests := horder.nests _ (List.mem_append_right _ (List.mem_singleton.2 rfl))
    have hspread : Spread ((jobs bs).map (·.2)) :=
      ⟨List.forall_mem_map.2 (stands_jobs bs hbs.nests), (hbs.pairwise (loc_jobs bs)).imp .inl⟩
    unfold infer
    refine .bind (fills_inferLocals hspread) fun r hr => ?_
    refine .bind (fills_infer e r.2 he) fun e' he' => fun _ => ?_
    rw [loc_jobs] at hr
    exact .node h (.beside horder hr he') (Typed.standsAt_loc _)
  | .ifThenElse c y n l, env, h => by
    have hc : c.outline.Nests := h.nests _ (by simp [Expr.outline, Outline.parts])
    have hy : y.outline.Nests := h.nests _ (by simp [Expr.outline, Outline.parts])
    have hn : n.outline.Nests := h.nests _ (by simp [Expr.outline, Outline.parts])
    unfold infer
    refine .bind (fills_infer c env hc) fun c' hc' => .skip fun _ => ?_
    refine .bind (fills_infer y env hy) fun y' hy' => ?_
    refine .bind (fills_infer n env hn) fun n' hn' => .skip fun _ => fun _ => ?_
    have hbranches := Fills.cons (h.parts_inOrder.sublist (List.sublist_cons_self ..)) hy' hn'
    have hinner := Fills.cons h.parts_inOrder hc' hbranches
    rw [← List.append_assoc] at hinner
    exact .node h hinner (Typed.standsAt_loc _)
  | .caseOf s as l, env, h => by
    have hs : s.outline.Nests := h.nests _ (List.mem_cons_self ..)
    have has : Outline.InOrder (Alt.outlines as) :=
      h.parts_inOrder.sublist (List.sublist_cons_self ..)
    unfold infer
    refine .bind (fills_infer s env hs) fun s' hs' => .skip fun t => ?_
    refine .bind (fills_rows (stands_altRows as has.nests) (has.pairwise (loc_altRows as)) _ t) ?_
    intro ms hms _
    rw [loc_altRows] at hms
    exact .node h (.cons h.parts_inOrder hs' (hms.hidden rfl)) (Typed.standsAt_loc _)
  | .list es l, env, h => by
    have hes : Outline.InOrder (Expr.outlines es) := h.parts_inOrder
    unfold infer
    refine .skip fun t => ?_
    refine .bind (fills_inferElems (infers_parts env es hes.nests)
      (hes.pairwise (loc_parts env es)) t) fun es' hes' => fun _ => ?_
    rw [loc_parts] at hes'
    exact .node h hes' (Typed.standsAt_loc _)
  | .par e l, env, h => by
    have he : e.outline.Nests := h.nests _ (List.mem_cons_self ..)
    unfold infer
    refine .bind (fills_infer e env he) fun e' he' => fun _ => ?_
    exact .node h he' (Typed.standsAt_loc _)

theorem infers_parts (env : Env) : ∀ es : List Expr, (∀ o ∈ Expr.outlines es, o.Nests) →
    ∀ p ∈ parts env es, Infers p.loc p.infer
  | [], _, p, hp => by
    unfold parts at hp
    cases hp
  | e :: es, h, p, hp => by
    unfold parts at hp
    obtain ⟨he, hes⟩ := List.forall_mem_cons.1 h
    rcases List.mem_cons.1 hp with rfl | hp
    · rw [← e.loc_outline]
      exact fills_infer e env he
    · exact infers_parts env es hes p hp

theorem infers_operands (env : Env) : ∀ es : List Operand,
    (∀ o ∈ Operand.outlines es, o.Nests) → ∀ p ∈ operands env es, Infers p.2.loc p.2.infer
  | [], _, p, hp => by
    unfold operands at hp
    cases hp
  | .mk op e :: es, h, p, hp => by
    unfold operands at hp
    obtain ⟨-, he, hes⟩ := (List.forall_mem_cons.1 h).imp_right List.forall_mem_cons.1
    rcases List.mem_cons.1 hp with rfl | hp
    · rw [← e.loc_outline]
      exact fills_infer e env he
    · exact infers_operands env es hes p hp

theorem stands_altRows : ∀ as : List Alt, (∀ o ∈ Alt.outlines as, o.Nests) →
    ∀ r ∈ altRows as, r.Stands
  | [], _, r, hr => by
    unfold altRows at hr
    cases hr
  | .mk p e l :: as, h, r, hr => by
    unfold altRows at hr
    obtain ⟨ha, has⟩ := List.forall_mem_cons.1 h
    rcases List.mem_cons.1 hr with rfl | hr
    · exact stands_row ha (fills_infer e)
    · exact stands_altRows as has r hr

theorem stands_matchRow : ∀ m : Match, m.outline.Nests → (matchRow m).Stands
  | .mk ps e l, h => by
    unfold matchRow
    exact stands_row h (fills_infer e)

theorem stands_matchRows : ∀ ms : List Match, (∀ o ∈ Match.outlines ms, o.Nests) →
    ∀ r ∈ matchRows ms, r.Stands
  | [], _, r, hr => by
    unfold matchRows at hr
    cases hr
  | m :: ms, h, r, hr => by
    unfold matchRows at hr
    obtain ⟨hm, hms⟩ := List.forall_mem_cons.1 h
    rcases List.mem_cons.1 hr with rfl | hr
    · exact stands_matchRow m hm
    · exact stands_matchRows ms hms r hr

theorem stands_funJob : ∀ b : FunBind, b.outline.Nests → (funJob b).Stands
  | .mk n nl m ms l, h => by
    have hm : m.outline.Nests := h.nests _ (List.mem_cons_self ..)
    have hms : ∀ o ∈ Match.outlines ms, o.Nests :=
      fun o ho => h.nests o (List.mem_cons_of_mem _ ho)
    have hlocs : (matchRow m :: matchRows ms).map Row.loc =
        (m.outline :: Match.outlines ms).map Outline.loc := by
      rw [List.map_cons, List.map_cons, loc_matchRow, loc_matchRows]
    have hwithin : ∀ s ∈ (matchRow m :: matchRows ms).map Row.loc, s.within l := by
      rw [hlocs]
      exact List.forall_mem_map.2 h.within
    unfold funJob
    refine ⟨h.good, ?_, h.parts_inOrder.pairwise hlocs, ?_⟩
    · exact List.forall_mem_cons.2 ⟨stands_matchRow m hm, stands_matchRows ms hms⟩
    · exact List.forall_mem_map.1 hwithin

theorem stands_job : ∀ b : Binding, b.outline.Nests → (job b).Stands
  | .fn b, h => by
    unfold job
    exact stands_funJob b h
  | .pat (.mk p e l), h => by
    have he : e.outline.Nests := h.nests _ (List.mem_cons_of_mem _ (List.mem_cons_self ..))
    unfold job
    exact ⟨e.outline, h, fun env => fills_infer e env he⟩

theorem stands_jobs : ∀ bs : List Binding, (∀ o ∈ Binding.outlines bs, o.Nests) →
    ∀ j ∈ jobs bs, j.2.Stands
  | [], _, j, hj => by
    unfold jobs at hj
    cases hj
  | b :: bs, h, j, hj => by
    unfold jobs at hj
    obtain ⟨hb, hbs⟩ := List.forall_mem_cons.1 h
    rcases List.mem_cons.1 hj with rfl | hj
    · exact stands_job b hb
    · exact stands_jobs bs hbs j hj

end

end

end Check

end TypeLens
