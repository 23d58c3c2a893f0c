import TypeLens.OpTree
import TypeLens.Proofs.Checking.Evolution

/-!
Actions that can break down. The checker looks names up that have to be there, takes the first
element of lists that have one, and asserts what its types do not say. Here each of these is an
operation that fails, so that it can be shown that none of them ever does.

The trees of operator rows are made on a stack of operands and a stack of operators; every operator
that waits has its left operand on the other stack, so that both can be taken off together.
-/

namespace TypeLens.Check.Strict

/-- What was not there. -/
inductive Fault
  /-- A declaration of the module. -/
  | place (space : Namespace) (occ : String)
  /-- The type of a name with a signature. -/
  | signature (n : Name)
  /-- The identifier of a binding in the group that is checked. -/
  | identifier (occ : String)
  /-- The class of an instance. -/
  | typeClass (n : Name)
  /-- A type constructor at the head of a type. -/
  | head (t : Ty)
  /-- A constraint, where one has been made from another. -/
  | constraint (t : Ty)
  /-- An element of a list. -/
  | element
deriving DecidableEq, Repr

/-- Actions that change a state and can break down. -/
abbrev Attempt (σ : Type) := StateT σ (Except Fault)

section

variable {σ α β : Type}

/-- An action that does not break down. -/
def lift (act : StateM σ α) : Attempt σ α := fun s => .ok (act.run s)

/-- What has to be there. -/
def need (f : Fault) : Option α → Attempt σ α
  | some a => return a
  | none => throw f

theorem bind_of_ok {act : Attempt σ α} {s s' : σ} {a : α} (h : act s = .ok (a, s'))
    (f : α → Attempt σ β) : (act >>= f) s = f a s' := by
  show (act s >>= fun r => f r.1 r.2) = f a s'
  rw [h]
  rfl

/-- Actions that cannot break down, as actions that can but do not. -/
structure Embeds {τ : Type} (F : ∀ {α : Type}, StateM σ α → Attempt τ α) : Prop where
  pure : ∀ {α : Type} (a : α), F (pure a) = pure a
  bind : ∀ {α β : Type} (act : StateM σ α) (f : α → StateM σ β),
    F (act >>= f) = F act >>= fun a => F (f a)

theorem embeds_lift : Embeds (@lift σ) := ⟨fun _ => rfl, fun _ _ => rfl⟩

theorem Embeds.mapM {τ : Type} {F : ∀ {α : Type}, StateM σ α → Attempt τ α} (hF : Embeds F)
    {f : α → Attempt τ β} {g : α → StateM σ β} {as : List α} (h : ∀ a ∈ as, f a = F (g a)) :
    as.mapM f = F (as.mapM g) := by
  induction as with
  | nil => exact (hF.pure []).symm
  | cons a as ih =>
    obtain ⟨ha, has⟩ := List.forall_mem_cons.1 h
    simp only [List.mapM_cons, ha, ih has, hF.bind, hF.pure]

theorem need_some (f : Fault) (a : α) : need f (some a) = (pure a : Attempt σ α) := rfl

end

-- Rows of operators

variable {ω α : Type}

/-- The last two operands as the operands of an operator. -/
def reduce (op : ω) : List (OpTree ω α) → Except Fault (List (OpTree ω α))
  | right :: left :: out => .ok (.node left op right :: out)
  | _ => .error .element

/-- Operands and operators that wait, the last ones first. -/
structure Stacks (ω α : Type) where
  out : List (OpTree ω α)
  pending : List ω

/-- Reduces before `op` is put on the stack; returned with the stacks are the operators that are in
conflict with it. -/
def settle (fixity : ω → Fixity) (op : ω) (out : List (OpTree ω α)) :
    List ω → Except Fault (Stacks ω α × List ω)
  | [] => .ok (⟨out, []⟩, [])
  | top :: pending =>
    match (fixity top).compare (fixity op) with
    | .rightFirst => .ok (⟨out, top :: pending⟩, [])
    | .leftFirst => do settle fixity op (← reduce top out) pending
    | .conflict => do
      let r ← settle fixity op (← reduce top out) pending
      return (r.1, top :: r.2)

def close (out : List (OpTree ω α)) : List ω → Except Fault (OpTree ω α)
  | [] =>
    match out.getLast? with
    | some t => .ok t
    | none => .error .element
  | top :: pending => do close (← reduce top out) pending

def resolveFrom (fixity : ω → Fixity) (s : Stacks ω α) :
    List (ω × α) → Except Fault (OpTree.Resolved ω α)
  | [] => return ⟨← close s.out s.pending, []⟩
  | (op, a) :: rest => do
    let (s', conflicts) ← settle fixity op s.out s.pending
    let r ← resolveFrom fixity ⟨.leaf a :: s'.out, op :: s'.pending⟩ rest
    return ⟨r.tree, conflicts.map (·, op) ++ r.conflicts⟩

/-- The tree of a row, given its operands and its operators. -/
def resolve (fixity : ω → Fixity) (ops : List ω) : List α → Except Fault (OpTree.Resolved ω α)
  | [] => .error .element
  | a :: as => resolveFrom fixity ⟨[.leaf a], []⟩ (ops.zip as)

/-- The stacks on which operators wait, below the operand that came last. -/
def waiting (right : OpTree ω α) (ps : OpTree.Pending ω α) : Stacks ω α :=
  ⟨right :: ps.map Prod.fst, ps.map Prod.snd⟩

theorem settle_waiting (fixity : ω → Fixity) (op : ω) (right : OpTree ω α)
    (ps : OpTree.Pending ω α) :
    settle fixity op (waiting right ps).out (waiting right ps).pending =
      .ok (waiting (OpTree.settle fixity op right ps).2.1 (OpTree.settle fixity op right ps).1,
        (OpTree.settle fixity op right ps).2.2) := by
  induction ps generalizing right with
  | nil => rfl
  | cons p ps ih =>
    have hrest := ih (.node p.1 p.2 right)
    simp only [waiting] at hrest ⊢
    simp only [List.map_cons, settle, OpTree.settle]
    cases (fixity p.2).compare (fixity op) with
    | rightFirst => rfl
    | leftFirst =>
      simp only [reduce]
      exact hrest
    | conflict =>
      simp only [reduce, bind, Except.bind, hrest]
      rfl

theorem close_waiting (right : OpTree ω α) (ps : OpTree.Pending ω α) :
    close (waiting right ps).out (waiting right ps).pending = .ok (right.close ps) := by
  induction ps generalizing right with
  | nil => rfl
  | cons p ps ih => exact ih (.node p.1 p.2 right)

theorem resolveFrom_waiting (fixity : ω → Fixity) (right : OpTree ω α) (ps : OpTree.Pending ω α)
    (rest : List (ω × α)) :
    resolveFrom fixity (waiting right ps) rest = .ok (OpTree.resolveFrom fixity ps right rest) := by
  induction rest generalizing right ps with
  | nil =>
    rw [resolveFrom, close_waiting]
    rfl
  | cons p rest ih =>
    rw [resolveFrom, settle_waiting]
    let r := OpTree.settle fixity p.1 right ps
    show (resolveFrom fixity (waiting (.leaf p.2) ((r.2.1, p.1) :: r.1)) rest >>= _) = _
    rw [ih]
    rfl

/-- No operand is missing, and the tree is that of the row. -/
theorem resolve_row (fixity : ω → Fixity) (first : α) (rest : List (ω × α)) :
    resolve fixity (rest.map Prod.fst) (first :: rest.map Prod.snd) =
      .ok (OpTree.resolve fixity first rest) := by
  have hzip : (rest.map Prod.fst).zip (rest.map Prod.snd) = rest := by
    rw [List.zip_map', List.map_id'']
    exact fun _ => rfl
  rw [resolve, hzip]
  exact resolveFrom_waiting fixity (.leaf first) [] rest

end TypeLens.Check.Strict
