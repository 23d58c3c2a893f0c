import Mathlib.Data.List.Nodup
import TypeLens.Proofs.Typed.Nodes

/-!
Where the nodes of a typed tree stand. A position says which child to take at each step down from the
roots, so that equal subtrees at different positions are told apart; the nodes in reading order are
the nodes at all positions, each once.
-/

namespace TypeLens.Typed

namespace Node

/-- The nodes right below a node, in the order of its fields. -/
def children : Node → List Node
  | .bind (.fn _ g _) => [.group g]
  | .bind (.pat p e _ _) => [.pat p, .expr e]
  | .bind (.abs _ _ _ bs _) => bs.map .bind
  | .expr (.head _ _) => []
  | .expr (.inst h _ _ _) => [.expr (.head h .unknown)]
  | .expr (.lit _ _) => []
  | .expr (.app f a _) => [.expr f, .expr a]
  | .expr (.opApp x op y _) => [.expr x, .expr op, .expr y]
  | .expr (.lambda g _) => [.group g]
  | .expr (.letIn bs e _) => bs.map .bind ++ [.expr e]
  | .expr (.ifThenElse c y n _) => [.expr c, .expr y, .expr n]
  | .expr (.caseOf s g _) => [.expr s, .group g]
  | .expr (.list es _ _) => es.map .expr
  | .expr (.par e _) => [.expr e]
  | .pat (.con _ _ ps _ _) => ps.map .pat
  | .pat (.par p _) => [.pat p]
  | .pat _ => []
  | .row (.mk ps e _) => ps.map .pat ++ [.expr e]
  | .group (.mk ms _ _) => ms.map .row

/-- A node and all nodes below it, in reading order. -/
def nodes : Node → List Node
  | .bind b => b.nodes
  | .expr e => e.nodes
  | .pat p => p.nodes
  | .row m => Match.nodesOf [m]
  | .group g => g.nodes

end Node

theorem nodesOf_binds_eq (bs : List Bind) :
    Bind.nodesOf bs = (bs.map Node.bind).flatMap Node.nodes := by
  induction bs with
  | nil => rfl
  | cons b bs ih => rw [Bind.nodesOf, ih]; rfl

theorem nodesOf_exprs_eq (es : List Expr) :
    Expr.nodesOf es = (es.map Node.expr).flatMap Node.nodes := by
  induction es with
  | nil => rfl
  | cons e es ih => rw [Expr.nodesOf, ih]; rfl

theorem nodesOf_pats_eq (ps : List Pat) :
    Pat.nodesOf ps = (ps.map Node.pat).flatMap Node.nodes := by
  induction ps with
  | nil => rfl
  | cons p ps ih => rw [Pat.nodesOf, ih]; rfl

theorem nodesOf_rows_eq (ms : List Match) :
    Match.nodesOf ms = (ms.map Node.row).flatMap Node.nodes := by
  induction ms with
  | nil => rfl
  | cons m ms ih =>
    obtain ⟨ps, e, l⟩ := m
    rw [Match.nodesOf, ih]
    simp [Node.nodes, Match.nodesOf]

/-- Reading order: a node stands before its children and all that is below them. -/
theorem nodes_eq_cons (n : Node) : n.nodes = n :: n.children.flatMap Node.nodes := by
  cases n with
  | bind b =>
    cases b <;> simp [Node.nodes, Node.children, Bind.nodes, nodesOf_binds_eq]
  | expr e =>
    cases e <;>
      simp [Node.nodes, Node.children, Expr.nodes, nodesOf_binds_eq, nodesOf_exprs_eq]
  | pat p =>
    cases p <;> simp [Node.nodes, Node.children, Pat.nodes, nodesOf_pats_eq]
  | row m =>
    obtain ⟨ps, e, l⟩ := m
    simp [Node.nodes, Node.children, Match.nodesOf, nodesOf_pats_eq]
  | group g =>
    obtain ⟨ms, ts, t⟩ := g
    simp [Node.nodes, Node.children, MatchGroup.nodes, nodesOf_rows_eq]

/-- Reading with a stack: the children of the node on top take its place. -/
def readStack : List Node → List Node
  | [] => []
  | n :: stack => n :: readStack (n.children ++ stack)
termination_by stack => (stack.flatMap Node.nodes).length
decreasing_by
  rw [List.flatMap_cons, List.flatMap_append, nodes_eq_cons]
  simp

/-- A stack with the roots on it is read in the order of the recursion. -/
theorem readStack_eq (ns : List Node) : readStack ns = ns.flatMap Node.nodes := by
  induction ns using readStack.induct with
  | case1 => rw [readStack]; rfl
  | case2 n stack ih =>
    rw [readStack, ih, List.flatMap_append, List.flatMap_cons, nodes_eq_cons, List.cons_append]

/-- The node at a position below some nodes: which of them, then which of its children, and so on. -/
def nodeAt? (ns : List Node) : List Nat → Option Node
  | [] => none
  | [i] => ns[i]?
  | i :: is => ns[i]?.bind fun n => nodeAt? n.children is

theorem nodeAt?_nil (q : List Nat) : nodeAt? [] q = none := by
  rcases q with _ | ⟨i, _ | ⟨j, q⟩⟩ <;> simp [nodeAt?]

theorem nodeAt?_cons_zero (n : Node) (ns : List Node) : nodeAt? (n :: ns) [0] = some n := rfl

theorem nodeAt?_below (n : Node) (ns : List Node) {q : List Nat} (hq : q ≠ []) :
    nodeAt? (n :: ns) (0 :: q) = nodeAt? n.children q := by
  rcases q with _ | ⟨j, q⟩
  · exact absurd rfl hq
  · rfl

theorem nodeAt?_cons_succ (n : Node) (ns : List Node) (i : Nat) (q : List Nat) :
    nodeAt? (n :: ns) ((i + 1) :: q) = nodeAt? ns (i :: q) := by
  rcases q with _ | ⟨j, q⟩ <;> rfl

/-- The position one place to the right. -/
def shiftRight : List Nat → List Nat
  | [] => []
  | i :: q => (i + 1) :: q

theorem shiftRight_injective : Function.Injective shiftRight := by
  rintro (_ | ⟨i, q⟩) (_ | ⟨j, r⟩) h <;> simp_all [shiftRight]

/-- A list of positions that has all those of the nodes below some nodes, each once, in the order in
which the nodes are read. -/
structure Enumerates (ns : List Node) (qs : List (List Nat)) : Prop where
  nodup : qs.Nodup
  mem : ∀ q, q ∈ qs ↔ (nodeAt? ns q).isSome
  reads : qs.map (nodeAt? ns) = (ns.flatMap Node.nodes).map some

theorem enumerates_nil : Enumerates [] [] where
  nodup := .nil
  mem q := by simp [nodeAt?_nil]
  reads := rfl

namespace Enumerates

variable {n : Node} {ns : List Node} {qs below beside : List (List Nat)}

/-- No position is empty. -/
theorem exists_cons (h : Enumerates ns qs) {q : List Nat} (hq : q ∈ qs) : ∃ i r, q = i :: r := by
  rcases q with _ | ⟨i, r⟩
  · simpa [nodeAt?] using (h.mem []).1 hq
  · exact ⟨i, r, rfl⟩

theorem shiftRight_ne (h : Enumerates ns beside) (q : List Nat) :
    ∀ r ∈ beside, shiftRight r ≠ [] ∧ shiftRight r ≠ 0 :: q := by
  intro r hr
  obtain ⟨i, s, rfl⟩ := h.exists_cons hr
  simp [shiftRight]

/-- The positions below `n :: ns`: that of `n`, those below `n`, and those of the other nodes, which
stand one place further right than without `n`. -/
def positions (below beside : List (List Nat)) : List (List Nat) :=
  [0] :: (below.map (0 :: ·) ++ beside.map shiftRight)

theorem nodup_positions (hbelow : Enumerates n.children below) (hbeside : Enumerates ns beside) :
    (positions below beside).Nodup := by
  refine List.nodup_cons.2 ⟨?_, List.Nodup.append ?_ ?_ ?_⟩
  · simp only [List.mem_append, List.mem_map, List.cons.injEq, true_and, not_or, not_exists, not_and]
    refine ⟨?_, fun q hq => (hbeside.shiftRight_ne [] q hq).2⟩
    rintro q hq rfl
    obtain ⟨i, r, h⟩ := hbelow.exists_cons hq
    cases h
  · exact hbelow.nodup.map List.cons_injective
  · exact hbeside.nodup.map shiftRight_injective
  · intro q hq hq'
    obtain ⟨r, -, rfl⟩ := List.mem_map.1 hq
    obtain ⟨r', hr', h⟩ := List.mem_map.1 hq'
    exact (hbeside.shiftRight_ne r r' hr').2 h

theorem mem_positions (hbelow : Enumerates n.children below) (hbeside : Enumerates ns beside)
    (q : List Nat) : q ∈ positions below beside ↔ (nodeAt? (n :: ns) q).isSome := by
  rw [positions]
  rcases q with _ | ⟨_ | i, q⟩
  · simpa [nodeAt?] using fun r hr => (hbeside.shiftRight_ne [] r hr).1
  · rcases eq_or_ne q [] with rfl | hq
    · simp [nodeAt?_cons_zero]
    · simpa [nodeAt?_below n ns hq, hq, ← hbelow.mem q] using
        fun r hr h => absurd h (hbeside.shiftRight_ne q r hr).2
  · have h : (i + 1) :: q ∈ beside.map shiftRight ↔ i :: q ∈ beside :=
      List.mem_map_of_injective (a := i :: q) shiftRight_injective
    simp [nodeAt?_cons_succ, h, hbeside.mem]

theorem reads_positions (hbelow : Enumerates n.children below) (hbeside : Enumerates ns beside) :
    (positions below beside).map (nodeAt? (n :: ns)) =
      ((n :: ns).flatMap Node.nodes).map some := by
  have hzero : (below.map (0 :: ·)).map (nodeAt? (n :: ns)) = below.map (nodeAt? n.children) := by
    rw [List.map_map]
    refine List.map_congr_left fun q hq => ?_
    obtain ⟨i, r, rfl⟩ := hbelow.exists_cons hq
    exact nodeAt?_below n ns (List.cons_ne_nil i r)
  have hsucc : (beside.map shiftRight).map (nodeAt? (n :: ns)) = beside.map (nodeAt? ns) := by
    rw [List.map_map]
    refine List.map_congr_left fun q hq => ?_
    obtain ⟨i, r, rfl⟩ := hbeside.exists_cons hq
    exact nodeAt?_cons_succ n ns i r
  rw [positions, List.map_cons, List.map_append, hzero, hsucc, hbelow.reads, hbeside.reads,
    nodeAt?_cons_zero, List.flatMap_cons, nodes_eq_cons, List.cons_append, List.map_cons,
    List.map_append]

theorem cons (hbelow : Enumerates n.children below) (hbeside : Enumerates ns beside) :
    Enumerates (n :: ns) (positions below beside) :=
  ⟨nodup_positions hbelow hbeside, mem_positions hbelow hbeside, reads_positions hbelow hbeside⟩

end Enumerates

theorem exists_enumerates (ns : List Node) : ∃ qs, Enumerates ns qs := by
  -- the induction is on the number of nodes, which is smaller both below the first and beside it
  induction h : (ns.flatMap Node.nodes).length using Nat.strongRecOn generalizing ns with
  | _ k ih =>
    subst h
    cases ns with
    | nil => exact ⟨[], enumerates_nil⟩
    | cons n ns =>
      have hlength : ((n :: ns).flatMap Node.nodes).length =
          1 + (n.children.flatMap Node.nodes).length + (ns.flatMap Node.nodes).length := by
        rw [List.flatMap_cons, nodes_eq_cons]
        simp only [List.length_append, List.length_cons]
        omega
      obtain ⟨below, hbelow⟩ := ih _ (by omega) n.children rfl
      obtain ⟨beside, hbeside⟩ := ih _ (by omega) ns rfl
      exact ⟨_, hbelow.cons hbeside⟩

end TypeLens.Typed
