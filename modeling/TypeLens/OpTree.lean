import TypeLens.Entity

/-!
Rows of operands with operators between them, and the trees that fixities make of them.
-/

namespace TypeLens

inductive OpTree (ω α : Type)
  | leaf (a : α)
  | node (left : OpTree ω α) (op : ω) (right : OpTree ω α)
deriving Repr

/-- What an operator does with the one to its left: takes its tree as an operand, leaves it the
operand between them, or neither. -/
inductive Precedence
  | leftFirst
  | rightFirst
  | conflict
deriving DecidableEq, Repr

/-- Which of two neighbouring operators binds tighter. -/
def Fixity.compare (left right : Fixity) : Precedence :=
  if right.precedence < left.precedence then .leftFirst
  else if left.precedence < right.precedence then .rightFirst
  else if left.assoc = .left ∧ right.assoc = .left then .leftFirst
  else if left.assoc = .right ∧ right.assoc = .right then .rightFirst
  else .conflict

namespace OpTree

variable {ω α : Type}

/-- Operators that still wait for their right operands, the last one first. -/
abbrev Pending (ω α : Type) := List (OpTree ω α × ω)

/-- Gives their right operands to the operators that bind tighter than `op`, and also to those that
are in conflict with it, which are returned. -/
def settle (fixity : ω → Fixity) (op : ω) (right : OpTree ω α) :
    Pending ω α → Pending ω α × OpTree ω α × List ω
  | [] => ([], right, [])
  | (left, top) :: rest =>
    match (fixity top).compare (fixity op) with
    | .rightFirst => ((left, top) :: rest, right, [])
    | .leftFirst => settle fixity op (.node left top right) rest
    | .conflict =>
      let r := settle fixity op (.node left top right) rest
      (r.1, r.2.1, top :: r.2.2)

def close (right : OpTree ω α) : Pending ω α → OpTree ω α
  | [] => right
  | (left, op) :: rest => close (.node left op right) rest

structure Resolved (ω α : Type) where
  tree : OpTree ω α
  conflicts : List (ω × ω)

def resolveFrom (fixity : ω → Fixity) (pending : Pending ω α) (right : OpTree ω α) :
    List (ω × α) → Resolved ω α
  | [] => ⟨right.close pending, []⟩
  | (op, a) :: rest =>
    let s := settle fixity op right pending
    let r := resolveFrom fixity ((s.2.1, op) :: s.1) (.leaf a) rest
    ⟨r.tree, s.2.2.map (·, op) ++ r.conflicts⟩

def resolve (fixity : ω → Fixity) (first : α) (rest : List (ω × α)) : Resolved ω α :=
  resolveFrom fixity [] (.leaf first) rest

def first : OpTree ω α → α
  | .leaf a => a
  | .node l _ _ => l.first

/-- The operators of a tree from left to right, each with the operand after it. -/
def rest : OpTree ω α → List (ω × α)
  | .leaf _ => []
  | .node l op r => l.rest ++ (op, r.first) :: r.rest

def operands : OpTree ω α → List α
  | .leaf a => [a]
  | .node l _ r => l.operands ++ r.operands

/-- The operators from left to right. -/
def operators : OpTree ω α → List ω
  | .leaf _ => []
  | .node l op r => l.operators ++ op :: r.operators

def map {β : Type} (f : α → β) : OpTree ω α → OpTree ω β
  | .leaf a => .leaf (f a)
  | .node l op r => .node (l.map f) op (r.map f)

/-- The operands to the left of the operators that wait, in order. -/
def pendingOperands : Pending ω α → List α
  | [] => []
  | (left, _) :: rest => pendingOperands rest ++ left.operands

/-- The operators that wait and those to the left of them, in order. -/
def pendingOperators : Pending ω α → List ω
  | [] => []
  | (left, op) :: rest => pendingOperators rest ++ left.operators ++ [op]

theorem operands_settle (fixity : ω → Fixity) (op : ω) (right : OpTree ω α) (ps : Pending ω α) :
    pendingOperands (settle fixity op right ps).1 ++ (settle fixity op right ps).2.1.operands =
      pendingOperands ps ++ right.operands := by
  induction ps generalizing right with
  | nil => rfl
  | cons p ps ih =>
    simp only [settle]
    split
    · rfl
    · rw [ih]
      simp only [pendingOperands, operands, List.append_assoc]
    · rw [ih]
      simp only [pendingOperands, operands, List.append_assoc]

theorem operands_close (right : OpTree ω α) (ps : Pending ω α) :
    (right.close ps).operands = pendingOperands ps ++ right.operands := by
  induction ps generalizing right with
  | nil => rfl
  | cons p ps ih => simp only [close, ih, pendingOperands, operands, List.append_assoc]

theorem operands_resolveFrom (fixity : ω → Fixity) (ps : Pending ω α) (right : OpTree ω α)
    (row : List (ω × α)) :
    (resolveFrom fixity ps right row).tree.operands =
      pendingOperands ps ++ right.operands ++ row.map (·.2) := by
  induction row generalizing ps right with
  | nil => simp only [resolveFrom, operands_close, List.map_nil, List.append_nil]
  | cons p row ih =>
    simp only [resolveFrom, ih, pendingOperands, operands, operands_settle, List.map_cons,
      List.append_assoc, List.singleton_append]

/-- The tree of a row has the operands of the row, in order. -/
theorem operands_resolve (fixity : ω → Fixity) (first : α) (row : List (ω × α)) :
    (resolve fixity first row).tree.operands = first :: row.map (·.2) :=
  operands_resolveFrom fixity [] (.leaf first) row

theorem operators_settle (fixity : ω → Fixity) (op : ω) (right : OpTree ω α) (ps : Pending ω α) :
    pendingOperators (settle fixity op right ps).1 ++ (settle fixity op right ps).2.1.operators =
      pendingOperators ps ++ right.operators := by
  induction ps generalizing right with
  | nil => rfl
  | cons p ps ih =>
    simp only [settle]
    split
    · rfl
    · simp [ih, pendingOperators, operators]
    · simp [ih, pendingOperators, operators]

theorem operators_close (right : OpTree ω α) (ps : Pending ω α) :
    (right.close ps).operators = pendingOperators ps ++ right.operators := by
  induction ps generalizing right with
  | nil => rfl
  | cons p ps ih => simp [close, ih, pendingOperators, operators]

theorem operators_resolveFrom (fixity : ω → Fixity) (ps : Pending ω α) (right : OpTree ω α)
    (row : List (ω × α)) :
    (resolveFrom fixity ps right row).tree.operators =
      pendingOperators ps ++ right.operators ++ row.map (·.1) := by
  induction row generalizing ps right with
  | nil => simp only [resolveFrom, operators_close, List.map_nil, List.append_nil]
  | cons p row ih =>
    have hsettle := operators_settle fixity p.1 right ps
    rw [resolveFrom, ih, pendingOperators, hsettle]
    simp [operators]

/-- The tree of a row has the operators of the row, in order. -/
theorem operators_resolve (fixity : ω → Fixity) (first : α) (row : List (ω × α)) :
    (resolve fixity first row).tree.operators = row.map (·.1) :=
  operators_resolveFrom fixity [] (.leaf first) row

-- What stands for the operands does not matter for the shape

variable {β : Type} (f : α → β)

def mapPending (ps : Pending ω α) : Pending ω β := ps.map (Prod.map (map f) id)

theorem settle_map (fixity : ω → Fixity) (op : ω) (right : OpTree ω α) (ps : Pending ω α) :
    settle fixity op (right.map f) (mapPending f ps) =
      (mapPending f (settle fixity op right ps).1, (settle fixity op right ps).2.1.map f,
        (settle fixity op right ps).2.2) := by
  induction ps generalizing right with
  | nil => rfl
  | cons p ps ih =>
    have hnode : (OpTree.node (p.1.map f) p.2 (right.map f)) = (OpTree.node p.1 p.2 right).map f :=
      rfl
    simp only [mapPending, List.map_cons, Prod.map, id] at ih ⊢
    simp only [settle]
    split
    · rfl
    · rw [hnode, ih]
    · rw [hnode, ih]

theorem close_map (right : OpTree ω α) (ps : Pending ω α) :
    (right.map f).close (mapPending f ps) = (right.close ps).map f := by
  induction ps generalizing right with
  | nil => rfl
  | cons p ps ih => exact ih (.node p.1 p.2 right)

theorem resolveFrom_map (fixity : ω → Fixity) (ps : Pending ω α) (right : OpTree ω α)
    (row : List (ω × α)) :
    resolveFrom fixity (mapPending f ps) (right.map f) (row.map (Prod.map id f)) =
      ⟨(resolveFrom fixity ps right row).tree.map f,
        (resolveFrom fixity ps right row).conflicts⟩ := by
  induction row generalizing ps right with
  | nil => simp only [List.map_nil, resolveFrom, close_map]
  | cons p row ih =>
    have hrest := ih (((settle fixity p.1 right ps).2.1, p.1) :: (settle fixity p.1 right ps).1)
      (.leaf p.2)
    simp only [mapPending, List.map_cons, Prod.map, id, map] at hrest
    simp only [List.map_cons, Prod.map, id, resolveFrom, settle_map]
    simp only [mapPending] at hrest ⊢
    rw [hrest]

theorem resolve_map (fixity : ω → Fixity) (first : α) (row : List (ω × α)) :
    resolve fixity (f first) (row.map (Prod.map id f)) =
      ⟨(resolve fixity first row).tree.map f, (resolve fixity first row).conflicts⟩ :=
  resolveFrom_map f fixity [] (.leaf first) row

end OpTree

end TypeLens
