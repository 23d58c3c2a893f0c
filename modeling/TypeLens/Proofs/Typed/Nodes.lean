import TypeLens.Typed.Node
import TypeLens.Typed.Resolve

/-!
The nodes of a typed tree, and what they become when unification variables give way to what they
stand for.
-/

namespace TypeLens.Typed

@[simp] theorem exprsOf_nil : exprsOf [] = [] := rfl

@[simp] theorem exprsOf_append (ns ms : List Node) :
    exprsOf (ns ++ ms) = exprsOf ns ++ exprsOf ms := List.filterMap_append

@[simp] theorem exprsOf_expr (e : Expr) (ns : List Node) :
    exprsOf (.expr e :: ns) = e :: exprsOf ns := rfl

@[simp] theorem exprsOf_bind (b : Bind) (ns : List Node) :
    exprsOf (.bind b :: ns) = exprsOf ns := rfl

@[simp] theorem exprsOf_pat (p : Pat) (ns : List Node) : exprsOf (.pat p :: ns) = exprsOf ns := rfl

@[simp] theorem exprsOf_row (m : Match) (ns : List Node) :
    exprsOf (.row m :: ns) = exprsOf ns := rfl

@[simp] theorem exprsOf_group (g : MatchGroup) (ns : List Node) :
    exprsOf (.group g :: ns) = exprsOf ns := rfl

theorem mem_exprsOf {ns : List Node} {e : Expr} : e ∈ exprsOf ns ↔ .expr e ∈ ns := by
  rw [exprsOf, List.mem_filterMap]
  constructor
  · rintro ⟨n, hn, h⟩
    cases n with
    | expr x => exact Option.some.inj h ▸ hn
    | _ => cases h
  · exact fun h => ⟨_, h, rfl⟩

theorem mem_nodesOf_rows {ms : List Match} {n : Node} :
    n ∈ Match.nodesOf ms ↔
      ∃ m ∈ ms, n = .row m ∨ n ∈ Pat.nodesOf m.pats ∨ n ∈ m.rhs.nodes := by
  induction ms with
  | nil => simp [Match.nodesOf]
  | cons m ms ih =>
    obtain ⟨ps, x, l⟩ := m
    unfold Match.nodesOf
    simp only [List.mem_append, List.mem_cons, exists_eq_or_imp, ih, Match.pats, Match.rhs,
      or_assoc]

theorem mem_nodesOf_binds {bs : List Bind} {n : Node} :
    n ∈ Bind.nodesOf bs ↔ ∃ b ∈ bs, n ∈ b.nodes := by
  induction bs with
  | nil => simp [Bind.nodesOf]
  | cons b bs ih =>
    unfold Bind.nodesOf
    simp only [List.mem_append, List.mem_cons, exists_eq_or_imp, ih]

theorem mem_nodesOf_list {es : List Expr} {n : Node} :
    n ∈ Expr.nodesOf es ↔ ∃ x ∈ es, n ∈ x.nodes := by
  induction es with
  | nil => simp [Expr.nodesOf]
  | cons x es ih =>
    unfold Expr.nodesOf
    simp only [List.mem_append, List.mem_cons, exists_eq_or_imp, ih]

/-- What is within an expression of a tree is in the tree, too. -/
def Closed (ns : List Node) : Prop := ∀ x, .expr x ∈ ns → x.nodes ⊆ ns

namespace Closed

variable {ns ms : List Node}

theorem append (h : Closed ns) (h' : Closed ms) : Closed (ns ++ ms) := by
  intro x hx
  rcases List.mem_append.1 hx with hx | hx
  · exact List.subset_append_of_subset_left _ (h x hx)
  · exact List.subset_append_of_subset_right _ (h' x hx)

theorem cons {n : Node} (h : Closed ns) (hn : n.expr? = none) : Closed (n :: ns) := by
  intro x hx
  rcases List.mem_cons.1 hx with rfl | hx
  · cases hn
  · exact List.subset_cons_of_subset _ (h x hx)

theorem of_parts {e : Expr} (h : Closed ns) (he : e.nodes = .expr e :: ns) : Closed e.nodes := by
  intro x hx
  rw [he] at hx
  rcases List.mem_cons.1 hx with hx | hx
  · rw [Node.expr.inj hx]
    exact List.Subset.refl _
  · rw [he]
    exact List.subset_cons_of_subset _ (h x hx)

end Closed

theorem closed_nil : Closed [] := fun _ h => absurd h List.not_mem_nil

mutual

theorem closed_pat : ∀ p : Pat, Closed p.nodes
  | .var _ _ | .wild _ _ | .lit _ _ => closed_nil.cons rfl
  | .con _ _ ps _ _ => (closed_pats ps).cons rfl
  | .par p _ => (closed_pat p).cons rfl

theorem closed_pats : ∀ ps : List Pat, Closed (Pat.nodesOf ps)
  | [] => closed_nil
  | p :: ps => (closed_pat p).append (closed_pats ps)

end

mutual

theorem closed_expr : ∀ e : Expr, Closed e.nodes
  | .head _ _ | .lit _ _ => closed_nil.of_parts rfl
  | .inst _ _ _ _ => (closed_nil.of_parts rfl : Closed (Expr.head _ _).nodes).of_parts rfl
  | .app f a _ => ((closed_expr f).append (closed_expr a)).of_parts rfl
  | .opApp x op y _ =>
    (((closed_expr x).append (closed_expr op)).append (closed_expr y)).of_parts rfl
  | .lambda g _ => (closed_group g).of_parts rfl
  | .letIn bs e _ => ((closed_binds bs).append (closed_expr e)).of_parts rfl
  | .ifThenElse c y n _ =>
    (((closed_expr c).append (closed_expr y)).append (closed_expr n)).of_parts rfl
  | .caseOf s g _ => ((closed_expr s).append (closed_group g)).of_parts rfl
  | .list es _ _ => (closed_exprs es).of_parts rfl
  | .par e _ => (closed_expr e).of_parts rfl

theorem closed_exprs : ∀ es : List Expr, Closed (Expr.nodesOf es)
  | [] => closed_nil
  | e :: es => (closed_expr e).append (closed_exprs es)

theorem closed_group : ∀ g : MatchGroup, Closed g.nodes
  | .mk ms _ _ => (closed_rows ms).cons rfl

theorem closed_rows : ∀ ms : List Match, Closed (Match.nodesOf ms)
  | [] => closed_nil
  | .mk ps e _ :: ms =>
    (((closed_pats ps).append (closed_expr e)).append (closed_rows ms)).cons rfl

theorem closed_bind : ∀ b : Bind, Closed b.nodes
  | .fn _ g _ => (closed_group g).cons rfl
  | .pat p e _ _ => ((closed_pat p).append (closed_expr e)).cons rfl
  | .abs _ _ _ bs _ => (closed_binds bs).cons rfl

theorem closed_binds : ∀ bs : List Bind, Closed (Bind.nodesOf bs)
  | [] => closed_nil
  | b :: bs => (closed_bind b).append (closed_binds bs)

end

namespace Answers

def row (a : Answers) : Match → Match
  | .mk ps e l => .mk (a.pats ps) (a.expr e) l

/-- What a node becomes. -/
def node (a : Answers) : Node → Node
  | .bind b => .bind (a.bind b)
  | .expr e => .expr (a.expr e)
  | .pat p => .pat (a.pat p)
  | .row m => .row (a.row m)
  | .group g => .group (a.group g)

end Answers

mutual

theorem nodes_pat (a : Answers) : ∀ p : Pat, (a.pat p).nodes = p.nodes.map a.node
  | .var _ _ => rfl
  | .wild _ _ => rfl
  | .lit _ _ => rfl
  | .con c ts ps t l => by
    simp only [Answers.pat, Pat.nodes, nodes_pats a ps, List.map_cons, Answers.node]
  | .par p l => by
    simp only [Answers.pat, Pat.nodes, nodes_pat a p, List.map_cons, Answers.node]

theorem nodes_pats (a : Answers) :
    ∀ ps : List Pat, Pat.nodesOf (a.pats ps) = (Pat.nodesOf ps).map a.node
  | [] => rfl
  | p :: ps => by
    simp only [Answers.pats, Pat.nodesOf, nodes_pat a p, nodes_pats a ps, List.map_append]

end

mutual

theorem nodes_expr (a : Answers) : ∀ e : Expr, (a.expr e).nodes = e.nodes.map a.node
  | .head h l => rfl
  | .inst h ts ds l => rfl
  | .lit v l => rfl
  | .app f x l => by
    simp only [Answers.expr, Expr.nodes, nodes_expr a f, nodes_expr a x, List.map_cons,
      List.map_append, Answers.node]
  | .opApp x op y l => by
    simp only [Answers.expr, Expr.nodes, nodes_expr a x, nodes_expr a op, nodes_expr a y,
      List.map_cons, List.map_append, Answers.node]
  | .lambda g l => by
    simp only [Answers.expr, Expr.nodes, nodes_group a g, List.map_cons, Answers.node]
  | .letIn bs e l => by
    simp only [Answers.expr, Expr.nodes, nodes_binds a bs, nodes_expr a e, List.map_cons,
      List.map_append, Answers.node]
  | .ifThenElse c y n l => by
    simp only [Answers.expr, Expr.nodes, nodes_expr a c, nodes_expr a y, nodes_expr a n,
      List.map_cons, List.map_append, Answers.node]
  | .caseOf s g l => by
    simp only [Answers.expr, Expr.nodes, nodes_expr a s, nodes_group a g, List.map_cons,
      List.map_append, Answers.node]
  | .list es t l => by
    simp only [Answers.expr, Expr.nodes, nodes_exprs a es, List.map_cons, Answers.node]
  | .par e l => by
    simp only [Answers.expr, Expr.nodes, nodes_expr a e, List.map_cons, Answers.node]

theorem nodes_exprs (a : Answers) :
    ∀ es : List Expr, Expr.nodesOf (a.exprs es) = (Expr.nodesOf es).map a.node
  | [] => rfl
  | e :: es => by
    simp only [Answers.exprs, Expr.nodesOf, nodes_expr a e, nodes_exprs a es, List.map_append]

theorem nodes_group (a : Answers) :
    ∀ g : MatchGroup, (a.group g).nodes = g.nodes.map a.node
  | .mk ms ts t => by
    simp only [Answers.group, MatchGroup.nodes, nodes_rows a ms, List.map_cons, Answers.node]

theorem nodes_rows (a : Answers) :
    ∀ ms : List Match, Match.nodesOf (a.rows ms) = (Match.nodesOf ms).map a.node
  | [] => rfl
  | .mk ps e l :: ms => by
    simp only [Answers.rows, Match.nodesOf, nodes_pats a ps, nodes_expr a e, nodes_rows a ms,
      List.map_cons, List.map_append, Answers.node, Answers.row]

theorem nodes_bind (a : Answers) : ∀ b : Bind, (a.bind b).nodes = b.nodes.map a.node
  | .fn i g l => by
    simp only [Answers.bind, Bind.nodes, nodes_group a g, List.map_cons, Answers.node]
  | .pat p e is l => by
    simp only [Answers.bind, Bind.nodes, nodes_pat a p, nodes_expr a e, List.map_cons,
      List.map_append, Answers.node]
  | .abs tvs ds xs bs l => by
    simp only [Answers.bind, Bind.nodes, nodes_binds a bs, List.map_cons, Answers.node]

theorem nodes_binds (a : Answers) :
    ∀ bs : List Bind, Bind.nodesOf (a.binds bs) = (Bind.nodesOf bs).map a.node
  | [] => rfl
  | b :: bs => by
    simp only [Answers.binds, Bind.nodesOf, nodes_bind a b, nodes_binds a bs, List.map_append]

end

end TypeLens.Typed
