import TypeLens.Surface.Groups

/-!
Where variables are written in a module, and the names that its declarations introduce.
-/

namespace TypeLens.Surface

mutual

/-- The variables and operators that an expression mentions, with their places. -/
def Expr.variables : Expr → List (String × Span)
  | .var n l => [(n, l)]
  | .con _ _ => []
  | .lit _ _ => []
  | .app f a _ => f.variables ++ a.variables
  | .row e es _ => e.variables ++ Operand.variablesOf es
  | .lambda _ e _ => e.variables
  | .letIn bs e _ => Binding.variablesOf bs ++ e.variables
  | .ifThenElse c y n _ => c.variables ++ y.variables ++ n.variables
  | .caseOf s as _ => s.variables ++ Alt.variablesOf as
  | .list es _ => Expr.variablesOf es
  | .par e _ => e.variables

def Expr.variablesOf : List Expr → List (String × Span)
  | [] => []
  | e :: es => e.variables ++ Expr.variablesOf es

def Operand.variablesOf : List Operand → List (String × Span)
  | [] => []
  | .mk op e :: es =>
    (if isConOperator op.name then [] else [(op.name, op.loc)]) ++ e.variables ++
      Operand.variablesOf es

def Alt.variablesOf : List Alt → List (String × Span)
  | [] => []
  | .mk _ e _ :: as => e.variables ++ Alt.variablesOf as

def Match.variables : Match → List (String × Span)
  | .mk _ e _ => e.variables

def Match.variablesOf : List Match → List (String × Span)
  | [] => []
  | m :: ms => m.variables ++ Match.variablesOf ms

def FunBind.variables : FunBind → List (String × Span)
  | .mk _ _ m ms _ => m.variables ++ Match.variablesOf ms

def Binding.variables : Binding → List (String × Span)
  | .fn b => b.variables
  | .pat (.mk _ e _) => e.variables

def Binding.variablesOf : List Binding → List (String × Span)
  | [] => []
  | b :: bs => b.variables ++ Binding.variablesOf bs

end

/-- The variables in the equations of a module, those of its instances included. -/
def Module.variables (m : Module) : List (String × Span) :=
  m.decls.flatMap fun
    | .bind b => b.variables
    | .inst i => i.binds.flatMap FunBind.variables
    | _ => []

/-- The names that a declaration introduces at the top of its module. -/
def Decl.introduced : Decl → List (Namespace × String)
  | .data d => (.type, d.name) :: d.cons.map fun c => (.value, c.name)
  | .cls c => (.type, c.name) :: (c.sigs.flatMap (·.names)).map fun n => (.value, n.1)
  | .prim p => p.sig.names.map fun n => (.value, n.1)
  | .bind b => b.binders.map fun n => (.value, n.1)
  | .sig _ | .fixity _ | .inst _ => []

def Module.introduced (m : Module) : List (Namespace × String) := m.decls.flatMap Decl.introduced

theorem mem_variablesOf {bs : List Binding} {x : String × Span} :
    x ∈ Binding.variablesOf bs ↔ ∃ b ∈ bs, x ∈ b.variables := by
  induction bs with
  | nil => simp [Binding.variablesOf]
  | cons b bs ih => simp [Binding.variablesOf, ih]

theorem mem_variables {m : Module} {x : String × Span} :
    x ∈ m.variables ↔ (∃ b, .bind b ∈ m.decls ∧ x ∈ b.variables) ∨
      ∃ i, .inst i ∈ m.decls ∧ ∃ b ∈ i.binds, x ∈ b.variables := by
  rw [Module.variables, List.mem_flatMap]
  constructor
  · rintro ⟨decl, hdecl, hx⟩
    cases decl with
    | bind b => exact .inl ⟨b, hdecl, hx⟩
    | inst i => exact .inr ⟨i, hdecl, List.mem_flatMap.1 hx⟩
    | _ => cases hx
  · rintro (⟨b, hb, hx⟩ | ⟨i, hi, hx⟩)
    · exact ⟨.bind b, hb, hx⟩
    · exact ⟨.inst i, hi, List.mem_flatMap.2 hx⟩

-- Their names

mutual

theorem Expr.mentions_eq : ∀ e : Expr, e.mentions = e.variables.map (·.1)
  | .var _ _ | .con _ _ | .lit _ _ => rfl
  | .app f a _ => by
    rw [Expr.mentions, Expr.variables, List.map_append, f.mentions_eq, a.mentions_eq]
  | .row e es _ => by
    rw [Expr.mentions, Expr.variables, List.map_append, e.mentions_eq, mentionsOperands_eq es]
  | .lambda _ e _ => by
    rw [Expr.mentions, Expr.variables, e.mentions_eq]
  | .letIn bs e _ => by
    rw [Expr.mentions, Expr.variables, List.map_append, e.mentions_eq, mentionsBindings_eq bs]
  | .ifThenElse c y n _ => by
    rw [Expr.mentions, Expr.variables, List.map_append, List.map_append, c.mentions_eq,
      y.mentions_eq, n.mentions_eq]
  | .caseOf s as _ => by
    rw [Expr.mentions, Expr.variables, List.map_append, s.mentions_eq, mentionsAlts_eq as]
  | .list es _ => by
    rw [Expr.mentions, Expr.variables, mentionsList_eq es]
  | .par e _ => by
    rw [Expr.mentions, Expr.variables, e.mentions_eq]

theorem mentionsList_eq : ∀ es : List Expr,
    Expr.mentionsList es = (Expr.variablesOf es).map (·.1)
  | [] => rfl
  | e :: es => by
    rw [Expr.mentionsList, Expr.variablesOf, List.map_append, e.mentions_eq, mentionsList_eq es]

theorem mentionsOperands_eq : ∀ es : List Operand,
    Expr.mentionsOperands es = (Operand.variablesOf es).map (·.1)
  | [] => rfl
  | .mk op e :: es => by
    rw [Expr.mentionsOperands, Operand.variablesOf, List.map_append, List.map_append,
      e.mentions_eq, mentionsOperands_eq es]
    split <;> rfl

theorem mentionsAlts_eq : ∀ as : List Alt,
    Expr.mentionsAlts as = (Alt.variablesOf as).map (·.1)
  | [] => rfl
  | .mk _ e _ :: as => by
    rw [Expr.mentionsAlts, Alt.variablesOf, List.map_append, e.mentions_eq, mentionsAlts_eq as]

theorem mentionsMatches_eq : ∀ ms : List Match,
    Expr.mentionsMatches ms = (Match.variablesOf ms).map (·.1)
  | [] => rfl
  | .mk _ e _ :: ms => by
    rw [Expr.mentionsMatches, Match.variablesOf, Match.variables, List.map_append, e.mentions_eq,
      mentionsMatches_eq ms]

theorem mentionsBindings_eq : ∀ bs : List Binding,
    Expr.mentionsBindings bs = (Binding.variablesOf bs).map (·.1)
  | [] => rfl
  | .fn (.mk _ _ (.mk _ e _) ms _) :: bs => by
    rw [Expr.mentionsBindings, Binding.variablesOf, Binding.variables, FunBind.variables,
      Match.variables, List.map_append, List.map_append, e.mentions_eq, mentionsMatches_eq ms,
      mentionsBindings_eq bs]
  | .pat (.mk _ e _) :: bs => by
    rw [Expr.mentionsBindings, Binding.variablesOf, Binding.variables, List.map_append,
      e.mentions_eq, mentionsBindings_eq bs]

end

theorem Binding.mentions_eq (b : Binding) : b.mentions = b.variables.map (·.1) := by
  rw [Binding.mentions, mentionsBindings_eq, Binding.variablesOf, Binding.variablesOf,
    List.append_nil]

end TypeLens.Surface
