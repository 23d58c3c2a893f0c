import TypeLens.Check.Infer

/-!
Rows of operators have at most one tree that agrees with the fixities, and resolution finds it: it
reports a conflict exactly if there is none.
-/

namespace TypeLens

/-- An operator can be the left operand of another one without brackets. -/
def Fixity.IsLeftOperand (inner outer : Fixity) : Prop :=
  outer.precedence < inner.precedence ∨
    inner.precedence = outer.precedence ∧ inner.assoc = .left ∧ outer.assoc = .left

/-- An operator can be the right operand of another one without brackets. -/
def Fixity.IsRightOperand (inner outer : Fixity) : Prop :=
  outer.precedence < inner.precedence ∨
    inner.precedence = outer.precedence ∧ inner.assoc = .right ∧ outer.assoc = .right

namespace Fixity

theorem compare_eq_leftFirst_iff {left right : Fixity} :
    left.compare right = .leftFirst ↔ left.IsLeftOperand right := by
  unfold compare IsLeftOperand
  grind

theorem compare_eq_rightFirst_iff {left right : Fixity} :
    left.compare right = .rightFirst ↔ right.IsRightOperand left := by
  unfold compare IsRightOperand
  grind

variable {a b c : Fixity}

theorem IsRightOperand.of_isLeftOperand (hb : b.IsRightOperand a) (hc : c.IsLeftOperand b) :
    c.IsRightOperand a := by
  unfold IsRightOperand IsLeftOperand at *
  grind

theorem IsLeftOperand.of_isRightOperand (hb : b.IsLeftOperand a) (hc : c.IsRightOperand b) :
    c.IsLeftOperand a := by
  unfold IsRightOperand IsLeftOperand at *
  grind

end Fixity

namespace OpTree

variable {ω α : Type}

/-- The outermost operator of a tree. -/
def top? : OpTree ω α → Option ω
  | .leaf _ => none
  | .node _ op _ => some op

/-- The operand of each operator that is a row itself can stand there without brackets. -/
def Agrees (fixity : ω → Fixity) : OpTree ω α → Prop
  | .leaf _ => True
  | .node l op r =>
    (∀ o ∈ l.top?, (fixity o).IsLeftOperand (fixity op)) ∧
      (∀ o ∈ r.top?, (fixity o).IsRightOperand (fixity op)) ∧ l.Agrees fixity ∧ r.Agrees fixity

/-- A row has been resolved: the tree consists of the row, there are no conflicts exactly if some
tree of the row agrees with the fixities, and then the tree is the only one that does. -/
structure Resolves (fixity : ω → Fixity) (a : α) (row : List (ω × α)) (r : Resolved ω α) :
    Prop where
  first_eq : r.tree.first = a
  rest_eq : r.tree.rest = row
  conflicts_eq_nil_iff : r.conflicts = [] ↔
    ∃ t : OpTree ω α, t.first = a ∧ t.rest = row ∧ t.Agrees fixity
  agrees_iff : r.conflicts = [] →
    ∀ t : OpTree ω α, t.first = a → t.rest = row → (t.Agrees fixity ↔ t = r.tree)

-- Reading a tree in order

theorem operands_eq (t : OpTree ω α) : t.operands = t.first :: t.rest.map (·.2) := by
  induction t with
  | leaf a => rfl
  | node l op r ihl ihr => simp [operands, first, rest, ihl, ihr]

theorem operators_eq (t : OpTree ω α) : t.operators = t.rest.map (·.1) := by
  induction t with
  | leaf a => rfl
  | node l op r ihl ihr => simp [operators, rest, ihl, ihr]

/-- The tree of a row gives back the row. -/
theorem first_rest_resolve (fixity : ω → Fixity) (a : α) (row : List (ω × α)) :
    (resolve fixity a row).tree.first = a ∧ (resolve fixity a row).tree.rest = row := by
  have hoperands := operands_resolve fixity a row
  have hoperators := operators_resolve fixity a row
  rw [operands_eq] at hoperands
  rw [operators_eq] at hoperators
  obtain ⟨hfirst, hsnd⟩ := List.cons.inj hoperands
  exact ⟨hfirst, (List.zip_of_prod hoperators hsnd).trans (List.zip_of_prod rfl rfl).symm⟩

variable {fixity : ω → Fixity}

-- Without conflicts the tree agrees with the fixities

/-- An operator can follow those that wait without taking the operand of the last one. -/
def Follows (fixity : ω → Fixity) (ps : Pending ω α) (op : ω) : Prop :=
  ∀ p ∈ ps.head?, (fixity op).IsRightOperand (fixity p.2)

/-- A tree between what waits and what comes next. -/
structure Stands (fixity : ω → Fixity) (ps : Pending ω α) (t : OpTree ω α) : Prop where
  agrees : t.Agrees fixity
  follows : ∀ o ∈ t.top?, Follows fixity ps o

/-- What waits is part of a tree that agrees with the fixities. -/
def Waits (fixity : ω → Fixity) : Pending ω α → Prop
  | [] => True
  | (left, op) :: ps =>
    Stands fixity ps left ∧ (∀ o ∈ left.top?, (fixity o).IsLeftOperand (fixity op)) ∧
      Follows fixity ps op ∧ Waits fixity ps

theorem stands_leaf (fixity : ω → Fixity) (ps : Pending ω α) (a : α) :
    Stands fixity ps (.leaf a) := ⟨trivial, fun o ho => by cases ho⟩

/-- The operator that waits gets its right operand. -/
theorem Waits.stands_node {left right : OpTree ω α} {op : ω} {ps : Pending ω α}
    (h : Waits fixity ((left, op) :: ps)) (hright : Stands fixity ((left, op) :: ps) right) :
    Stands fixity ps (.node left op right) := by
  obtain ⟨hleft, htop, hop, -⟩ := h
  refine ⟨⟨htop, fun o ho => ?_, hleft.agrees, hright.agrees⟩, fun o ho => ?_⟩
  · exact hright.follows o ho (left, op) rfl
  · cases ho
    exact hop

theorem waits_settle {op : ω} {right : OpTree ω α} {ps : Pending ω α} (hps : Waits fixity ps)
    (hright : Stands fixity ps right)
    (htop : ∀ o ∈ right.top?, (fixity o).IsLeftOperand (fixity op))
    (hnone : (settle fixity op right ps).2.2 = []) :
    Waits fixity (((settle fixity op right ps).2.1, op) :: (settle fixity op right ps).1) := by
  induction ps generalizing right with
  | nil => exact ⟨hright, htop, fun p hp => (by cases hp), trivial⟩
  | cons p ps ih =>
    obtain ⟨left, top⟩ := p
    unfold settle at hnone ⊢
    split at hnone
    · next hcompare =>
      rw [Fixity.compare_eq_rightFirst_iff] at hcompare
      refine ⟨hright, htop, fun p hp => ?_, hps⟩
      cases hp
      exact hcompare
    · next hcompare =>
      rw [Fixity.compare_eq_leftFirst_iff] at hcompare
      refine ih hps.2.2.2 (hps.stands_node hright) (fun o ho => ?_) hnone
      cases ho
      exact hcompare
    · cases hnone

theorem agrees_close {right : OpTree ω α} {ps : Pending ω α} (hps : Waits fixity ps)
    (hright : Stands fixity ps right) : (close right ps).Agrees fixity := by
  induction ps generalizing right with
  | nil => exact hright.agrees
  | cons p ps ih => exact ih hps.2.2.2 (hps.stands_node hright)

theorem agrees_resolveFrom {a : α} {ps : Pending ω α} {row : List (ω × α)}
    (hps : Waits fixity ps) (hnone : (resolveFrom fixity ps (.leaf a) row).conflicts = []) :
    (resolveFrom fixity ps (.leaf a) row).tree.Agrees fixity := by
  induction row generalizing a ps with
  | nil => exact agrees_close hps (stands_leaf ..)
  | cons p row ih =>
    obtain ⟨hsettle, hrest⟩ := List.append_eq_nil_iff.1 hnone
    rw [List.map_eq_nil_iff] at hsettle
    refine ih (waits_settle hps (stands_leaf ..) (fun o ho => ?_) hsettle) hrest
    cases ho

-- A tree that agrees with the fixities is found

/-- The last operand of a tree. -/
def last : OpTree ω α → α
  | .leaf a => a
  | .node _ _ r => r.last

/-- The operators of the right edge of a tree wait for their right operands when all but the last
operand has been read. -/
def onEdge (ps : Pending ω α) : OpTree ω α → Pending ω α
  | .leaf _ => ps
  | .node l op r => onEdge ((l, op) :: ps) r

theorem close_onEdge (t : OpTree ω α) (ps : Pending ω α) :
    close (.leaf t.last) (onEdge ps t) = close t ps := by
  induction t generalizing ps with
  | leaf a => rfl
  | node l op r _ ih => exact ih _

/-- An operator that all operators of a tree can be left operands of settles the tree. -/
theorem settle_onEdge {t : OpTree ω α} (ht : t.Agrees fixity) {op : ω}
    (htop : ∀ o ∈ t.top?, (fixity o).IsLeftOperand (fixity op)) (ps : Pending ω α) :
    settle fixity op (.leaf t.last) (onEdge ps t) = settle fixity op t ps := by
  induction t generalizing ps with
  | leaf a => rfl
  | node l o r _ ih =>
    obtain ⟨-, hr, -, hagrees⟩ := ht
    have ho := htop o rfl
    have hedge := ih hagrees (fun o' ho' => ho.of_isRightOperand (hr o' ho')) ((l, o) :: ps)
    rw [last, onEdge, hedge, settle, Fixity.compare_eq_leftFirst_iff.2 ho]

theorem settle_of_follows {op : ω} {ps : Pending ω α} (h : Follows fixity ps op)
    (right : OpTree ω α) : settle fixity op right ps = (ps, right, []) := by
  cases ps with
  | nil => rfl
  | cons p ps => rw [settle, Fixity.compare_eq_rightFirst_iff.2 (h p rfl)]

/-- A tree that agrees with the fixities is read up to its last operand without a conflict. -/
theorem resolveFrom_rest {t : OpTree ω α} {ps : Pending ω α} (ht : Stands fixity ps t)
    (row : List (ω × α)) :
    resolveFrom fixity ps (.leaf t.first) (t.rest ++ row) =
      resolveFrom fixity (onEdge ps t) (.leaf t.last) row := by
  induction t generalizing ps row with
  | leaf a => rfl
  | node l op r ihl ihr =>
    obtain ⟨⟨hl, hr, hlagrees, hragrees⟩, hfollows⟩ := ht
    have hop : Follows fixity ps op := hfollows op rfl
    have hleft : Stands fixity ps l :=
      ⟨hlagrees, fun o ho p hp => (hop p hp).of_isLeftOperand (hl o ho)⟩
    have hright : Stands fixity ((l, op) :: ps) r := by
      refine ⟨hragrees, fun o ho p hp => ?_⟩
      cases hp
      exact hr o ho
    rw [first, rest, List.append_assoc, List.cons_append, ihl hleft, resolveFrom,
      settle_onEdge hlagrees hl, settle_of_follows hop]
    exact ihr hright row

theorem resolve_eq_of_agrees {t : OpTree ω α} (ht : t.Agrees fixity) :
    resolve fixity t.first t.rest = ⟨t, []⟩ := by
  have hstands : Stands fixity [] t := ⟨ht, fun _ _ p hp => by cases hp⟩
  have hread := resolveFrom_rest hstands []
  rw [List.append_nil] at hread
  rw [resolve, hread, resolveFrom, close_onEdge]
  rfl

theorem resolves_resolve (fixity : ω → Fixity) (a : α) (row : List (ω × α)) :
    Resolves fixity a row (resolve fixity a row) := by
  obtain ⟨hfirst, hrest⟩ := first_rest_resolve fixity a row
  have hfound {t : OpTree ω α} (h : t.first = a ∧ t.rest = row ∧ t.Agrees fixity) :
      resolve fixity a row = ⟨t, []⟩ := by
    obtain ⟨rfl, rfl, ht⟩ := h
    exact resolve_eq_of_agrees ht
  have hagrees (hnone : (resolve fixity a row).conflicts = []) :
      (resolve fixity a row).tree.Agrees fixity := agrees_resolveFrom trivial hnone
  refine ⟨hfirst, hrest, ⟨fun hnone => ⟨_, hfirst, hrest, hagrees hnone⟩, ?_⟩, ?_⟩
  · rintro ⟨t, ht⟩
    rw [hfound ht]
  · intro hnone t htf htr
    refine ⟨fun ht => ?_, fun ht => ht ▸ hagrees hnone⟩
    rw [hfound ⟨htf, htr, ht⟩]

end OpTree

namespace Check

open Surface (OpRef)

/-- What is reported of a conflict. -/
def conflictReport (env : Env) (c : OpRef × OpRef) : Report :=
  ⟨.fixityConflict c.1.name (opFixity env c.1) c.2.name (opFixity env c.2), c.2.loc⟩

theorem run_forM_report {ω : Type} (p : ω → Report) (cs : List ω) (s : State) :
    (cs.forM fun c => report (p c).problem (p c).loc).run s =
      ((), { s with reports := (cs.map p).reverse ++ s.reports }) := by
  induction cs generalizing s with
  | nil => rfl
  | cons c cs ih =>
    have hrest := ih { s with reports := p c :: s.reports }
    rw [List.map_cons, List.reverse_cons, List.append_assoc, List.singleton_append]
    exact hrest

/-- A row of operands is resolved before they are checked: each conflict is reported, and nothing
else; then the tree is checked. There are no conflicts exactly if the row has a tree that agrees
with the fixities, which then is the only one. -/
theorem rows_resolved :
    (∀ {ω α : Type} (fixity : ω → Fixity) (a : α) (row : List (ω × α)),
      OpTree.Resolves fixity a row (OpTree.resolve fixity a row)) ∧
    ∀ (env : Env) (first : Part) (rest : List (OpRef × Part)) (s : State),
      let r := OpTree.resolve (opFixity env) first rest
      (inferRow env first rest).run s = (inferTree env r.tree).run
        { s with reports := (r.conflicts.map (conflictReport env)).reverse ++ s.reports } := by
  refine ⟨OpTree.resolves_resolve, fun env first rest s => ?_⟩
  have hreports := run_forM_report (conflictReport env)
    (OpTree.resolve (opFixity env) first rest).conflicts s
  unfold inferRow
  rw [StateT.run_bind]
  exact congrArg (fun r : Unit × State => (inferTree env _).run r.2) hreports

end Check

end TypeLens
