import TypeLens.Proofs.Typed.Nodes

/-!
The names that typed trees take from their surroundings. The bindings of a group are in the scope of
each other, but core terms are made from them as if each was in the scope of those before it only:
so there are two readings of a tree.
-/

namespace TypeLens

/-- Names that are not declared at the top level. -/
def Name.IsLocal (n : Name) : Prop := n.unique ≠ 0

instance Name.decidableIsLocal : DecidablePred Name.IsLocal := fun n =>
  inferInstanceAs (Decidable (n.unique ≠ 0))

namespace Typed

def Head.name : Head → Name
  | .var i => i.name
  | .con n _ => n

mutual

/-- The dictionaries that evidence refers to, those of instances among them. -/
def Evidence.names : Evidence → List Name
  | .byInstance i _ hs => i.name :: Hole.namesOf hs
  | .byParam d => [d.name]

def Hole.names : Hole → List Name
  | .unsolved _ _ => []
  | .solved _ e => e.names

def Hole.namesOf : List Hole → List Name
  | [] => []
  | h :: hs => h.names ++ Hole.namesOf hs

end

theorem mem_namesOf_holes {x : Name} {hs : List Hole} :
    x ∈ Hole.namesOf hs ↔ ∃ h ∈ hs, x ∈ h.names := by
  induction hs with
  | nil => simp [Hole.namesOf]
  | cons h hs ih => simp [Hole.namesOf, ih]

mutual

def Pat.names : Pat → List Name
  | .var i _ => [i.name]
  | .wild _ _ => []
  | .lit _ _ => []
  | .con _ _ ps _ _ => Pat.namesOf ps
  | .par p _ => p.names

def Pat.namesOf : List Pat → List Name
  | [] => []
  | p :: ps => p.names ++ Pat.namesOf ps

end

/-- A pattern that a value has to be tested for. -/
def Pat.refutable : Pat → Bool
  | .var _ _ => false
  | .wild _ _ => false
  | .lit _ _ => true
  | .con _ _ _ _ _ => true
  | .par p _ => p.refutable

/-- What a binding defines. -/
def Bind.names : Bind → List Name
  | .fn i _ _ => [i.name]
  | .pat _ _ is _ => is.map (·.name)
  | .abs _ _ xs _ _ => xs.map (·.poly.name)

def Bind.namesOf (bs : List Bind) : List Name := bs.flatMap Bind.names

/-- A group is read with its bindings in the scope of each other, or each in the scope of those
before it and a function in its own. -/
inductive Reading
  | together
  | inOrder

def Reading.choose {α : Type} (together inOrder : α) : Reading → α
  | .together => together
  | .inOrder => inOrder

mutual

/-- The names that an expression takes from its surroundings. Equations that come after one that
always matches do not count, and nor does a group that defines nothing. -/
def Expr.free (r : Reading) : Expr → List Name
  | .head h _ => [h.name]
  | .inst h _ ds _ => h.name :: Hole.namesOf ds
  | .lit _ _ => []
  | .app f a _ => f.free r ++ a.free r
  | .opApp x op y _ => x.free r ++ op.free r ++ y.free r
  | .lambda g _ => g.free r
  | .letIn bs e _ => Bind.scope r bs (e.free r)
  | .ifThenElse c y n _ => c.free r ++ y.free r ++ n.free r
  | .caseOf s g _ => s.free r ++ g.free r
  | .list es _ _ => Expr.freeOf r es
  | .par e _ => e.free r

def Expr.freeOf (r : Reading) : List Expr → List Name
  | [] => []
  | e :: es => e.free r ++ Expr.freeOf r es

def MatchGroup.free (r : Reading) : MatchGroup → List Name
  | .mk ms _ _ => Match.freeOf r ms

def Match.freeOf (r : Reading) : List Match → List Name
  | [] => []
  | .mk ps e _ :: ms =>
    (e.free r).filter (· ∉ Pat.namesOf ps) ++
      if ps.any Pat.refutable then Match.freeOf r ms else []

def Bind.free (r : Reading) : Bind → List Name
  | .fn i g _ => (g.free r).filter (· ≠ i.name)
  | .pat _ e _ _ => e.free r
  | .abs _ ds xs bs _ =>
    if xs.isEmpty then []
    else
      (r.choose ((Bind.freeOf r bs).filter (· ∉ Bind.namesOf bs)) (Bind.scope r bs [])).filter
        (· ∉ ds.map (·.name))

/-- What bindings take together with a body that takes `ns`, each in the scope of those before
it. -/
def Bind.scope (r : Reading) : List Bind → List Name → List Name
  | [], ns => ns
  | b :: bs, ns => b.free r ++ (Bind.scope r bs ns).filter (· ∉ b.names)

def Bind.freeOf (r : Reading) : List Bind → List Name
  | [] => []
  | b :: bs => b.free r ++ Bind.freeOf r bs

end

mutual

/-- The bindings of each group in an expression that counts. -/
def Expr.groups : Expr → List (List Bind)
  | .head _ _ => []
  | .inst _ _ _ _ => []
  | .lit _ _ => []
  | .app f a _ => f.groups ++ a.groups
  | .opApp x op y _ => x.groups ++ op.groups ++ y.groups
  | .lambda g _ => g.groups
  | .letIn bs e _ => Bind.groupsOf bs ++ e.groups
  | .ifThenElse c y n _ => c.groups ++ y.groups ++ n.groups
  | .caseOf s g _ => s.groups ++ g.groups
  | .list es _ _ => Expr.groupsOf es
  | .par e _ => e.groups

def Expr.groupsOf : List Expr → List (List Bind)
  | [] => []
  | e :: es => e.groups ++ Expr.groupsOf es

def MatchGroup.groups : MatchGroup → List (List Bind)
  | .mk ms _ _ => Match.groupsOf ms

def Match.groupsOf : List Match → List (List Bind)
  | [] => []
  | .mk ps e _ :: ms => e.groups ++ if ps.any Pat.refutable then Match.groupsOf ms else []

def Bind.groups : Bind → List (List Bind)
  | .fn _ g _ => g.groups
  | .pat _ e _ _ => e.groups
  | .abs _ _ xs bs _ => if xs.isEmpty then [] else bs :: Bind.groupsOf bs

def Bind.groupsOf : List Bind → List (List Bind)
  | [] => []
  | b :: bs => b.groups ++ Bind.groupsOf bs

end

/-- No binding of a group takes a local name that a later one defines, and no pattern one that it
defines itself. -/
structure Bind.Ordered (bs : List Bind) : Prop where
  later : bs.Pairwise fun b b' => ∀ x ∈ b'.names, x.IsLocal → x ∉ b.free .inOrder
  own : ∀ b ∈ bs, ∀ x ∈ b.names, x.IsLocal → x ∉ b.free .inOrder

variable {x : Name}

theorem Bind.Ordered.tail {b : Bind} {bs : List Bind} (h : Ordered (b :: bs)) : Ordered bs :=
  ⟨(List.pairwise_cons.1 h.later).2, fun b hb => h.own b (List.mem_cons_of_mem _ hb)⟩

/-- In a group that is in order, nothing that it defines is taken from outside. -/
theorem Bind.Ordered.exists_free {bs : List Bind} (h : Ordered bs) (hx : x.IsLocal)
    (hmem : x ∈ scope .inOrder bs []) : (∃ b ∈ bs, x ∈ b.free .inOrder) ∧ x ∉ namesOf bs := by
  induction bs with
  | nil => cases hmem
  | cons b bs ih =>
    obtain ⟨hlater, -⟩ := List.pairwise_cons.1 h.later
    rw [scope, List.mem_append, List.mem_filter, decide_eq_true_eq] at hmem
    rw [namesOf, List.flatMap_cons, List.mem_append, not_or]
    rcases hmem with hmem | ⟨hmem, hb⟩
    · refine ⟨⟨b, List.mem_cons_self .., hmem⟩, fun hown => ?_, fun hothers => ?_⟩
      · exact h.own b (List.mem_cons_self ..) x hown hx hmem
      · obtain ⟨b', hb', hname⟩ := List.mem_flatMap.1 hothers
        exact hlater b' hb' x hname hx hmem
    · obtain ⟨⟨b', hb', hfree⟩, hnot⟩ := ih h.tail hmem
      exact ⟨⟨b', List.mem_cons_of_mem _ hb', hfree⟩, hb, hnot⟩

theorem mem_freeOf_binds {r : Reading} {bs : List Bind} :
    x ∈ Bind.freeOf r bs ↔ ∃ b ∈ bs, x ∈ b.free r := by
  induction bs with
  | nil => simp [Bind.freeOf]
  | cons b bs ih => simp [Bind.freeOf, ih]

theorem mem_namesOf_cons {b : Bind} {bs : List Bind} :
    x ∈ Bind.namesOf (b :: bs) ↔ x ∈ b.names ∨ x ∈ Bind.namesOf bs := by
  rw [Bind.namesOf, List.flatMap_cons, List.mem_append, Bind.namesOf]

theorem mem_scope {r : Reading} {bs : List Bind} {ns : List Name} :
    x ∈ Bind.scope r bs ns ↔ x ∈ Bind.scope r bs [] ∨ x ∈ ns ∧ x ∉ Bind.namesOf bs := by
  induction bs with
  | nil => simp [Bind.scope, Bind.namesOf]
  | cons b bs ih =>
    simp only [Bind.scope, List.mem_append, List.mem_filter, ih, mem_namesOf_cons, not_or,
      decide_eq_true_eq, or_and_right, or_assoc, and_assoc, and_comm (a := x ∉ b.names)]

-- Where all groups are in order, both readings agree.

mutual

theorem free_together_expr (hx : x.IsLocal) : ∀ e : Expr, (∀ bs ∈ e.groups, Bind.Ordered bs) →
    x ∈ e.free .inOrder → x ∈ e.free .together
  | .head _ _, _, h | .inst _ _ _ _, _, h | .lit _ _, _, h => h
  | .app f a _, ho, h => by
    rw [Expr.groups, List.forall_mem_append] at ho
    rw [Expr.free, List.mem_append] at h ⊢
    exact h.imp (free_together_expr hx f ho.1) (free_together_expr hx a ho.2)
  | .opApp y op z _, ho, h => by
    rw [Expr.groups, List.forall_mem_append, List.forall_mem_append] at ho
    rw [Expr.free, List.mem_append, List.mem_append] at h ⊢
    exact h.imp (.imp (free_together_expr hx y ho.1.1) (free_together_expr hx op ho.1.2))
      (free_together_expr hx z ho.2)
  | .lambda g _, ho, h => by
    rw [Expr.groups] at ho
    rw [Expr.free] at h ⊢
    exact free_together_group hx g ho h
  | .letIn bs e _, ho, h => by
    rw [Expr.groups, List.forall_mem_append] at ho
    rw [Expr.free] at h ⊢
    exact scope_together hx bs ho.1 (free_together_expr hx e ho.2) h
  | .ifThenElse c y n _, ho, h => by
    rw [Expr.groups, List.forall_mem_append, List.forall_mem_append] at ho
    rw [Expr.free, List.mem_append, List.mem_append] at h ⊢
    exact h.imp (.imp (free_together_expr hx c ho.1.1) (free_together_expr hx y ho.1.2))
      (free_together_expr hx n ho.2)
  | .caseOf s g _, ho, h => by
    rw [Expr.groups, List.forall_mem_append] at ho
    rw [Expr.free, List.mem_append] at h ⊢
    exact h.imp (free_together_expr hx s ho.1) (free_together_group hx g ho.2)
  | .list es _ _, ho, h => by
    rw [Expr.groups] at ho
    rw [Expr.free] at h ⊢
    exact free_together_exprs hx es ho h
  | .par e _, ho, h => by
    rw [Expr.groups] at ho
    rw [Expr.free] at h ⊢
    exact free_together_expr hx e ho h

theorem free_together_exprs (hx : x.IsLocal) : ∀ es : List Expr,
    (∀ bs ∈ Expr.groupsOf es, Bind.Ordered bs) →
      x ∈ Expr.freeOf .inOrder es → x ∈ Expr.freeOf .together es
  | [], _, h => h
  | e :: es, ho, h => by
    rw [Expr.groupsOf, List.forall_mem_append] at ho
    rw [Expr.freeOf, List.mem_append] at h ⊢
    exact h.imp (free_together_expr hx e ho.1) (free_together_exprs hx es ho.2)

theorem free_together_group (hx : x.IsLocal) : ∀ g : MatchGroup,
    (∀ bs ∈ g.groups, Bind.Ordered bs) → x ∈ g.free .inOrder → x ∈ g.free .together
  | .mk ms _ _, ho, h => by
    rw [MatchGroup.groups] at ho
    rw [MatchGroup.free] at h ⊢
    exact free_together_rows hx ms ho h

theorem free_together_rows (hx : x.IsLocal) : ∀ ms : List Match,
    (∀ bs ∈ Match.groupsOf ms, Bind.Ordered bs) →
      x ∈ Match.freeOf .inOrder ms → x ∈ Match.freeOf .together ms
  | [], _, h => h
  | .mk ps e _ :: ms, ho, h => by
    rw [Match.groupsOf, List.forall_mem_append] at ho
    rw [Match.freeOf, List.mem_append, List.mem_filter] at h ⊢
    refine h.imp (.imp_left (free_together_expr hx e ho.1)) fun h => ?_
    split at h
    · next hr =>
      rw [if_pos hr] at ho ⊢
      exact free_together_rows hx ms ho.2 h
    · cases h

theorem free_together_bind (hx : x.IsLocal) : ∀ b : Bind, (∀ bs ∈ b.groups, Bind.Ordered bs) →
    x ∈ b.free .inOrder → x ∈ b.free .together
  | .fn i g _, ho, h => by
    rw [Bind.groups] at ho
    rw [Bind.free, List.mem_filter] at h ⊢
    exact h.imp_left (free_together_group hx g ho)
  | .pat p e is _, ho, h => by
    rw [Bind.groups] at ho
    rw [Bind.free] at h ⊢
    exact free_together_expr hx e ho h
  | .abs tvs ds xs bs _, ho, h => by
    rw [Bind.groups] at ho
    rw [Bind.free] at h ⊢
    split at h
    · cases h
    · next hne =>
      rw [if_neg hne] at ho ⊢
      obtain ⟨hbs, hrest⟩ := List.forall_mem_cons.1 ho
      obtain ⟨h, hds⟩ := List.mem_filter.1 h
      obtain ⟨⟨b, hb, hfree⟩, hnot⟩ := hbs.exists_free hx h
      refine List.mem_filter.2 ⟨List.mem_filter.2 ⟨?_, decide_eq_true hnot⟩, hds⟩
      exact free_together_binds hx bs hrest (mem_freeOf_binds.2 ⟨b, hb, hfree⟩)

theorem scope_together (hx : x.IsLocal) : ∀ bs : List Bind,
    (∀ g ∈ Bind.groupsOf bs, Bind.Ordered g) → ∀ {ns ns' : List Name}, (x ∈ ns → x ∈ ns') →
      x ∈ Bind.scope .inOrder bs ns → x ∈ Bind.scope .together bs ns'
  | [], _, _, _, hns, h => hns h
  | b :: bs, ho, _, _, hns, h => by
    rw [Bind.groupsOf, List.forall_mem_append] at ho
    rw [Bind.scope, List.mem_append, List.mem_filter] at h ⊢
    exact h.imp (free_together_bind hx b ho.1) (.imp_left (scope_together hx bs ho.2 hns))

theorem free_together_binds (hx : x.IsLocal) : ∀ bs : List Bind,
    (∀ g ∈ Bind.groupsOf bs, Bind.Ordered g) →
      x ∈ Bind.freeOf .inOrder bs → x ∈ Bind.freeOf .together bs
  | [], _, h => h
  | b :: bs, ho, h => by
    rw [Bind.groupsOf, List.forall_mem_append] at ho
    rw [Bind.freeOf, List.mem_append] at h ⊢
    exact h.imp (free_together_bind hx b ho.1) (free_together_binds hx bs ho.2)

end

end Typed

end TypeLens
