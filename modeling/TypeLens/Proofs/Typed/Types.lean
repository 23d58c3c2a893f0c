import TypeLens.Proofs.Typed.Evidence
import TypeLens.Proofs.Typed.Nodes

/-!
The types at the nodes of a typed tree. When unification variables give way to what they stand for,
none is left that stands for anything but itself.
-/

namespace TypeLens

/-- The constraints of a scheme, and its body. -/
def Scheme.types (s : Scheme) : List Ty := s.preds.map Pred.ty ++ [s.body]

namespace Typed

mutual

/-- The types in evidence, those of the contexts of its instances among them. -/
def Evidence.types : Evidence → List Ty
  | .byInstance i ts hs => i.context.map Pred.ty ++ ts ++ Hole.allTypes hs
  | .byParam d => [d.pred.ty]

def Hole.types : Hole → List Ty
  | .unsolved _ p => [p.ty]
  | .solved p e => p.ty :: e.types

def Hole.allTypes : List Hole → List Ty
  | [] => []
  | h :: hs => h.types ++ Hole.allTypes hs

end

def Ident.types (i : Ident) : List Ty := i.scheme.types

/-! The types at a node are its own: those of the nodes within it are theirs. -/

def Pat.types : Pat → List Ty
  | .var i _ => i.types
  | .wild t _ => [t]
  | .lit v _ => [v.ty]
  | .con _ ts _ t _ => t :: ts
  | .par _ _ => []

def Expr.types : Expr → List Ty
  | .head h _ => h.scheme.types
  | .inst h ts ds _ => h.scheme.types ++ ts ++ Hole.allTypes ds
  | .lit v _ => [v.ty]
  | .list _ t _ => [t]
  | .app .. | .opApp .. | .lambda .. | .letIn .. | .ifThenElse .. | .caseOf .. | .par .. => []

def Export.types (x : Export) : List Ty := x.poly.types ++ x.mono.types

def Bind.types : Bind → List Ty
  | .fn i _ _ => i.types
  | .pat _ _ is _ => is.flatMap Ident.types
  | .abs _ ds xs _ _ => ds.map (·.pred.ty) ++ xs.flatMap Export.types

def MatchGroup.types (g : MatchGroup) : List Ty := g.resTy :: g.argTys

def Node.types : Node → List Ty
  | .bind b => b.types
  | .expr e => e.types
  | .pat p => p.types
  | .row _ => []
  | .group g => g.types

end Typed

/-- A type stands for itself. -/
def Subst.Fixes (σ : Subst) (t : Ty) : Prop := σ.apply t = t

namespace Subst

variable {σ : Subst} {t : Ty}

theorem fixes_apply (σ : Subst) (t : Ty) : σ.Fixes (σ.apply t) := σ.apply_apply t

theorem Fixes.image? (h : σ.Fixes t) {k : UVar} (hk : k ∈ t.uvarOccurrences) :
    σ.image? k = none := by
  rw [← h] at hk
  exact image?_of_mem_apply hk

/-- A type in which nothing is left to find out. -/
theorem fixes_of_closed (h : t.uvarOccurrences = []) : σ.Fixes t :=
  Ty.substUvars_eq_self fun k hk => by
    rw [h] at hk
    cases hk

end Subst

namespace Typed

theorem mem_allTypes {hs : List Hole} {t : Ty} :
    t ∈ Hole.allTypes hs ↔ ∃ h ∈ hs, t ∈ h.types := by
  induction hs with
  | nil => simp [Hole.allTypes]
  | cons h hs ih => simp [Hole.allTypes, ih]

theorem fixes_literal (σ : Subst) (v : Literal) : σ.Fixes v.ty := by
  cases v with
  | int | text => exact Subst.fixes_of_closed rfl

/-- A solution when it is found: it refers to holes that are open, through an instance whose context
is on rigid variables. -/
def Evidence.Open : Evidence → Prop
  | .byInstance i _ hs =>
    (∀ q ∈ i.context, q.arg.uvarOccurrences = []) ∧ ∀ h ∈ hs, ∃ v q, h = .unsolved v q
  | .byParam _ => True

namespace Answers

variable {a : Answers}

theorem types_substUvars (σ : Subst) (s : Scheme) :
    (s.substUvars σ.image?).types = s.types.map σ.apply := by
  simp only [Scheme.types, Scheme.substUvars, List.map_append, List.map_map, List.map_cons,
    List.map_nil]
  rfl

theorem types_ident (i : Ident) : (a.ident i).types = i.types.map a.ty :=
  types_substUvars a.images i.scheme

theorem types_head (h : Head) : (a.head h).scheme.types = h.scheme.types.map a.ty := by
  cases h with
  | var i => exact types_ident i
  | con n s => exact types_substUvars a.images s

theorem fixes_of_mem_map {ts : List Ty} {t : Ty} (h : t ∈ ts.map a.ty) : a.images.Fixes t := by
  obtain ⟨u, -, rfl⟩ := List.mem_map.1 h
  exact a.images.fixes_apply u

theorem fixes_of_mem_ident {i : Ident} {t : Ty} (h : t ∈ (a.ident i).types) :
    a.images.Fixes t := by
  rw [types_ident] at h
  exact fixes_of_mem_map h

theorem fixes_of_mem_head {h : Head} {t : Ty} (ht : t ∈ (a.head h).scheme.types) :
    a.images.Fixes t := by
  rw [types_head] at ht
  exact fixes_of_mem_map ht

/-- In the evidence that is known, all types stand for themselves. -/
def Settled (a : Answers) : Prop :=
  ∀ v e, a.evidence.get? v = some e → ∀ t ∈ e.types, a.images.Fixes t

theorem Settled.hole (ha : a.Settled) (v : Nat) (q : Pred) :
    ∀ t ∈ (a.hole (.unsolved v q)).types, a.images.Fixes t := by
  intro t ht
  have hpred : a.images.Fixes (a.pred q).ty := a.images.fixes_apply q.ty
  rw [Answers.hole] at ht
  split at ht
  · next e he =>
    rcases List.mem_cons.1 ht with rfl | ht
    · exact hpred
    · exact ha v e he t ht
  · obtain rfl := List.mem_singleton.1 ht
    exact hpred

theorem Settled.holes (ha : a.Settled) {ds : List Hole} (hds : ∀ d ∈ ds, ∃ v q, d = .unsolved v q) :
    ∀ t ∈ Hole.allTypes (ds.map a.hole), a.images.Fixes t := by
  intro t ht
  obtain ⟨h, hh, ht⟩ := mem_allTypes.1 ht
  obtain ⟨d, hd, rfl⟩ := List.mem_map.1 hh
  obtain ⟨v, q, rfl⟩ := hds d hd
  exact ha.hole v q t ht

theorem Settled.evidenceOf (ha : a.Settled) {e : Evidence} (he : e.Open) :
    ∀ t ∈ (a.evidenceOf e).types, a.images.Fixes t := by
  intro t ht
  cases e with
  | byParam d =>
    obtain rfl := List.mem_singleton.1 ht
    exact a.images.fixes_apply d.pred.ty
  | byInstance i ts hs =>
    obtain ⟨hcontext, hholes⟩ := he
    simp only [Answers.evidenceOf, Evidence.types, List.mem_append] at ht
    rcases ht with (ht | ht) | ht
    · obtain ⟨q, hq, rfl⟩ := List.mem_map.1 ht
      exact Subst.fixes_of_closed (hcontext q hq)
    · exact fixes_of_mem_map ht
    · exact ha.holes hholes t ht

/-- What a solution refers to was solved after it, so it is settled when its turn comes. -/
theorem settled_ofSolutions (σ : Subst) {sols : List (Nat × Evidence)}
    (h : ∀ p ∈ sols, p.2.Open) : (ofSolutions σ sols).Settled := by
  have hfold {a : Answers} (ha : a.Settled) : (sols.foldl (fun a p =>
      (⟨a.images, (p.1, a.evidenceOf p.2) :: a.evidence⟩ : Answers)) a).Settled := by
    induction sols generalizing a with
    | nil => exact ha
    | cons p sols ih =>
      obtain ⟨hp, hrest⟩ := List.forall_mem_cons.1 h
      refine ih hrest fun v e he => ?_
      rw [Table.get?] at he
      split at he
      · obtain rfl := Option.some.inj he
        exact ha.evidenceOf hp
      · exact ha v e he
  exact hfold fun _ _ he => by cases he

-- Nodes

theorem fixes_pat (p : Pat) : ∀ t ∈ (a.pat p).types, a.images.Fixes t := by
  intro t ht
  cases p with
  | var i l => exact fixes_of_mem_ident ht
  | wild u l =>
    obtain rfl := List.mem_singleton.1 ht
    exact a.images.fixes_apply u
  | lit v l =>
    obtain rfl := List.mem_singleton.1 ht
    exact fixes_literal _ v
  | con c ts ps u l =>
    have ht : t ∈ (u :: ts).map a.ty := ht
    exact fixes_of_mem_map ht
  | par p l => cases ht

theorem fixes_bind (b : Bind) : ∀ t ∈ (a.bind b).types, a.images.Fixes t := by
  intro t ht
  cases b with
  | fn i g l => exact fixes_of_mem_ident ht
  | pat p e is l =>
    obtain ⟨j, hj, ht⟩ := List.mem_flatMap.1 ht
    obtain ⟨i, -, rfl⟩ := List.mem_map.1 hj
    exact fixes_of_mem_ident ht
  | abs tvs ds xs bs l =>
    rcases List.mem_append.1 ht with ht | ht
    · obtain ⟨d', hd', rfl⟩ := List.mem_map.1 ht
      obtain ⟨d, -, rfl⟩ := List.mem_map.1 hd'
      exact a.images.fixes_apply d.pred.ty
    · obtain ⟨x', hx', ht⟩ := List.mem_flatMap.1 ht
      obtain ⟨x, -, rfl⟩ := List.mem_map.1 hx'
      rcases List.mem_append.1 ht with ht | ht
      · exact fixes_of_mem_ident ht
      · exact fixes_of_mem_ident ht

theorem fixes_group (g : MatchGroup) : ∀ t ∈ (a.group g).types, a.images.Fixes t := by
  obtain ⟨ms, ts, u⟩ := g
  intro t ht
  have ht : t ∈ (u :: ts).map a.ty := ht
  exact fixes_of_mem_map ht

theorem Settled.expr (ha : a.Settled) {e : Expr} (he : ∀ d ∈ e.dicts, ∃ v q, d = .unsolved v q) :
    ∀ t ∈ (a.expr e).types, a.images.Fixes t := by
  intro t ht
  cases e with
  | head h l => exact fixes_of_mem_head ht
  | inst h ts ds l =>
    simp only [Answers.expr, Expr.types, List.mem_append] at ht
    rcases ht with (ht | ht) | ht
    · exact fixes_of_mem_head ht
    · exact fixes_of_mem_map ht
    · exact ha.holes he t ht
  | lit v l =>
    obtain rfl := List.mem_singleton.1 ht
    exact fixes_literal _ v
  | list es u l =>
    have ht : t ∈ [u].map a.ty := ht
    exact fixes_of_mem_map ht
  | app | opApp | lambda | letIn | ifThenElse | caseOf | par => cases ht

/-- Whatever node of a tree a type is at, it stands for itself in the end. -/
theorem Settled.node (ha : a.Settled) {n : Node}
    (hn : ∀ e, n = .expr e → ∀ d ∈ e.dicts, ∃ v q, d = .unsolved v q) :
    ∀ t ∈ (a.node n).types, a.images.Fixes t := by
  cases n with
  | expr e => exact ha.expr (hn e rfl)
  | bind b => exact fixes_bind b
  | pat p => exact fixes_pat p
  | group g => exact fixes_group g
  | row m => exact fun t ht => by cases ht

end Answers

end Typed

end TypeLens
