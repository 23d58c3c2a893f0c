import TypeLens.Globals
import TypeLens.Proofs.Typed.Reading

/-!
The variables of a typed tree, each with the binders around it.
-/

namespace TypeLens.Typed

/-- An occurrence of a variable, with the identifiers of the enclosing binders, innermost first. -/
structure Use where
  around : List Ident
  ident : Ident
  loc : Span
deriving Repr

/-- The innermost identifier of a name. -/
def innermost? (ids : List Ident) (occ : String) : Option Ident := ids.find? (·.name.occ == occ)

/-- A variable is that of the innermost binder of its name around it. If there is none, its name is
the only one that its spelling can mean at the top level, and it has the scheme of what the name
denotes there. -/
def Use.Refers (g : Globals) (u : Use) : Prop :=
  match innermost? u.around u.ident.name.occ with
  | some i => u.ident = i
  | none => g.scope.unqualified u.ident.name = true ∧
      ∃ x, g.entity? u.ident.name = some (.ident x) ∧ u.ident.scheme = x.scheme

-- Binders

mutual

def Pat.idents : Pat → List Ident
  | .var i _ => [i]
  | .wild _ _ => []
  | .lit _ _ => []
  | .con _ _ ps _ _ => Pat.identsOf ps
  | .par p _ => p.idents

def Pat.identsOf : List Pat → List Ident
  | [] => []
  | p :: ps => p.idents ++ Pat.identsOf ps

end

/-- What a binding defines for what comes after it; those of a group are generalised. -/
def Bind.idents : Bind → List Ident
  | .fn i _ _ => [i]
  | .pat _ _ is _ => is
  | .abs _ _ xs _ _ => xs.map (·.poly)

def Bind.identsOf (bs : List Bind) : List Ident := bs.flatMap Bind.idents

-- Occurrences

def Head.uses (ids : List Ident) (l : Span) : Head → List Use
  | .var i => [⟨ids, i, l⟩]
  | .con _ _ => []

mutual

/-- The variables in an expression, which stands within some binders. Bindings are in the scope of
each other; within a group they are not generalised. -/
def Expr.uses : Expr → List Ident → List Use
  | .head h l, ids => h.uses ids l
  | .inst h _ _ l, ids => h.uses ids l
  | .lit _ _, _ => []
  | .app f a _, ids => f.uses ids ++ a.uses ids
  | .opApp x op y _, ids => x.uses ids ++ op.uses ids ++ y.uses ids
  | .lambda g _, ids => g.uses ids
  | .letIn bs e _, ids =>
    Bind.usesOf bs (Bind.identsOf bs ++ ids) ++ e.uses (Bind.identsOf bs ++ ids)
  | .ifThenElse c y n _, ids => c.uses ids ++ y.uses ids ++ n.uses ids
  | .caseOf s g _, ids => s.uses ids ++ g.uses ids
  | .list es _ _, ids => Expr.usesOf es ids
  | .par e _, ids => e.uses ids

def Expr.usesOf : List Expr → List Ident → List Use
  | [], _ => []
  | e :: es, ids => e.uses ids ++ Expr.usesOf es ids

def MatchGroup.uses : MatchGroup → List Ident → List Use
  | .mk ms _ _, ids => Match.usesOf ms ids

def Match.usesOf : List Match → List Ident → List Use
  | [], _ => []
  | .mk ps e _ :: ms, ids => e.uses (Pat.identsOf ps ++ ids) ++ Match.usesOf ms ids

def Bind.uses : Bind → List Ident → List Use
  | .fn _ g _, ids => g.uses ids
  | .pat _ e _ _, ids => e.uses ids
  | .abs _ _ xs bs _, ids => Bind.usesOf bs (xs.map (·.mono) ++ ids)

def Bind.usesOf : List Bind → List Ident → List Use
  | [], _ => []
  | b :: bs, ids => b.uses ids ++ Bind.usesOf bs ids

end

/-- The variables in a binding of the top level. A function with a signature and a method of an
instance are no binders of their own: mentioned there, their names mean what they do at the top
level. -/
def Bind.topUses (signed : List String) : Bind → List Use
  | .abs _ _ xs bs _ =>
    Bind.usesOf bs ((xs.map (·.mono)).filter fun i => ¬ i.name.IsLocal ∧ i.name.occ ∉ signed)
  | b => b.uses []

theorem mem_usesOf_exprs {ids : List Ident} {es : List Expr} {u : Use} :
    u ∈ Expr.usesOf es ids ↔ ∃ e ∈ es, u ∈ e.uses ids := by
  induction es with
  | nil => simp [Expr.usesOf]
  | cons e es ih => simp [Expr.usesOf, ih]

theorem mem_usesOf_rows {ids : List Ident} {ms : List Match} {u : Use} :
    u ∈ Match.usesOf ms ids ↔ ∃ m ∈ ms, u ∈ m.rhs.uses (Pat.identsOf m.pats ++ ids) := by
  induction ms with
  | nil => simp [Match.usesOf]
  | cons m ms ih =>
    obtain ⟨ps, e, l⟩ := m
    simp [Match.usesOf, ih, Match.rhs, Match.pats]

theorem mem_usesOf_binds {ids : List Ident} {bs : List Bind} {u : Use} :
    u ∈ Bind.usesOf bs ids ↔ ∃ b ∈ bs, u ∈ b.uses ids := by
  induction bs with
  | nil => simp [Bind.usesOf]
  | cons b bs ih => simp [Bind.usesOf, ih]

theorem innermost?_append (ids ids' : List Ident) (occ : String) :
    innermost? (ids ++ ids') occ = (innermost? ids occ).or (innermost? ids' occ) :=
  List.find?_append

theorem occ_of_innermost? {ids : List Ident} {occ : String} {i : Ident}
    (h : innermost? ids occ = some i) : i.name.occ = occ := by
  simpa using List.find?_some h

theorem mem_of_innermost? {ids : List Ident} {occ : String} {i : Ident}
    (h : innermost? ids occ = some i) : i ∈ ids := List.mem_of_find?_eq_some h

-- The final tree

def Answers.use (a : Answers) (u : Use) : Use := ⟨u.around.map a.ident, a.ident u.ident, u.loc⟩

theorem innermost?_map (a : Answers) (ids : List Ident) (occ : String) :
    innermost? (ids.map a.ident) occ = (innermost? ids occ).map a.ident :=
  List.find?_map

mutual

theorem idents_pat (a : Answers) : ∀ p : Pat, (a.pat p).idents = p.idents.map a.ident
  | .var _ _ | .wild _ _ | .lit _ _ => rfl
  | .con c ts ps t l => by
    rw [Answers.pat, Pat.idents, Pat.idents, idents_pats a ps]
  | .par p l => by
    rw [Answers.pat, Pat.idents, Pat.idents, idents_pat a p]

theorem idents_pats (a : Answers) :
    ∀ ps : List Pat, Pat.identsOf (a.pats ps) = (Pat.identsOf ps).map a.ident
  | [] => rfl
  | p :: ps => by
    rw [Answers.pats, Pat.identsOf, Pat.identsOf, idents_pat a p, idents_pats a ps, List.map_append]

end

theorem idents_bind (a : Answers) (b : Bind) : (a.bind b).idents = b.idents.map a.ident := by
  cases b with
  | fn | pat => rfl
  | abs => simp [Answers.bind, Bind.idents]

theorem idents_binds (a : Answers) (bs : List Bind) :
    Bind.identsOf (a.binds bs) = (Bind.identsOf bs).map a.ident := by
  induction bs with
  | nil => rfl
  | cons b bs ih =>
    rw [Answers.binds, Bind.identsOf, List.flatMap_cons, idents_bind]
    simp only [Bind.identsOf, List.flatMap_cons, List.map_append] at ih ⊢
    rw [ih]

theorem uses_head (a : Answers) (ids : List Ident) (l : Span) (h : Head) :
    (a.head h).uses (ids.map a.ident) l = (h.uses ids l).map a.use := by
  cases h <;> rfl

mutual

theorem uses_expr (a : Answers) : ∀ (e : Expr) (ids : List Ident),
    (a.expr e).uses (ids.map a.ident) = (e.uses ids).map a.use
  | .head h l, ids => uses_head a ids l h
  | .inst h ts ds l, ids => uses_head a ids l h
  | .lit v l, ids => rfl
  | .app f x l, ids => by
    simp only [Answers.expr, Expr.uses, uses_expr a f, uses_expr a x, List.map_append]
  | .opApp x op y l, ids => by
    simp only [Answers.expr, Expr.uses, uses_expr a x, uses_expr a op, uses_expr a y,
      List.map_append]
  | .lambda g l, ids => by
    simp only [Answers.expr, Expr.uses, uses_group a g]
  | .letIn bs e l, ids => by
    simp only [Answers.expr, Expr.uses, idents_binds, ← List.map_append, uses_binds a bs,
      uses_expr a e]
  | .ifThenElse c y n l, ids => by
    simp only [Answers.expr, Expr.uses, uses_expr a c, uses_expr a y, uses_expr a n,
      List.map_append]
  | .caseOf s g l, ids => by
    simp only [Answers.expr, Expr.uses, uses_expr a s, uses_group a g, List.map_append]
  | .list es t l, ids => by
    simp only [Answers.expr, Expr.uses, uses_exprs a es]
  | .par e l, ids => by
    simp only [Answers.expr, Expr.uses, uses_expr a e]

theorem uses_exprs (a : Answers) : ∀ (es : List Expr) (ids : List Ident),
    Expr.usesOf (a.exprs es) (ids.map a.ident) = (Expr.usesOf es ids).map a.use
  | [], ids => rfl
  | e :: es, ids => by
    simp only [Answers.exprs, Expr.usesOf, uses_expr a e, uses_exprs a es, List.map_append]

theorem uses_group (a : Answers) : ∀ (g : MatchGroup) (ids : List Ident),
    (a.group g).uses (ids.map a.ident) = (g.uses ids).map a.use
  | .mk ms ts t, ids => by
    simp only [Answers.group, MatchGroup.uses, uses_rows a ms]

theorem uses_rows (a : Answers) : ∀ (ms : List Match) (ids : List Ident),
    Match.usesOf (a.rows ms) (ids.map a.ident) = (Match.usesOf ms ids).map a.use
  | [], ids => rfl
  | .mk ps e l :: ms, ids => by
    simp only [Answers.rows, Match.usesOf, idents_pats, ← List.map_append, uses_expr a e,
      uses_rows a ms]

theorem uses_bind (a : Answers) : ∀ (b : Bind) (ids : List Ident),
    (a.bind b).uses (ids.map a.ident) = (b.uses ids).map a.use
  | .fn i g l, ids => by
    simp only [Answers.bind, Bind.uses, uses_group a g]
  | .pat p e is l, ids => by
    simp only [Answers.bind, Bind.uses, uses_expr a e]
  | .abs tvs ds xs bs l, ids => by
    have hmonos : (xs.map fun x => Export.mk (a.ident x.poly) (a.ident x.mono)).map (·.mono) =
        (xs.map (·.mono)).map a.ident := by
      rw [List.map_map, List.map_map]
      rfl
    simp only [Answers.bind, Bind.uses, hmonos, ← List.map_append, uses_binds a bs]

theorem uses_binds (a : Answers) : ∀ (bs : List Bind) (ids : List Ident),
    Bind.usesOf (a.binds bs) (ids.map a.ident) = (Bind.usesOf bs ids).map a.use
  | [], ids => rfl
  | b :: bs, ids => by
    simp only [Answers.binds, Bind.usesOf, uses_bind a b, uses_binds a bs, List.map_append]

end

theorem topUses_bind (a : Answers) (signed : List String) (b : Bind) :
    (a.bind b).topUses signed = (b.topUses signed).map a.use := by
  cases b with
  | fn i g l => exact uses_bind a (.fn i g l) []
  | pat p e is l => exact uses_bind a (.pat p e is l) []
  | abs tvs ds xs bs l =>
    rw [Answers.bind, Bind.topUses, Bind.topUses, ← uses_binds, List.map_map, List.filter_map,
      List.filter_map, List.map_map]
    rfl

/-- A variable whose binder gives way to what it stands for still refers to it. -/
theorem Use.Refers.use {g : Globals} {u : Use} (h : u.Refers g) (a : Answers)
    (hg : ∀ n x, g.entity? n = some (.ident x) → x.scheme.substUvars a.images.image? = x.scheme) :
    (a.use u).Refers g := by
  unfold Use.Refers at h ⊢
  have hfind : innermost? (a.use u).around (a.use u).ident.name.occ =
      (innermost? u.around u.ident.name.occ).map a.ident := innermost?_map a u.around _
  rw [hfind]
  split at h
  · next i hi =>
    rw [hi]
    exact congrArg a.ident h
  · next hnone =>
    rw [hnone]
    obtain ⟨hscope, x, hx, hscheme⟩ := h
    refine ⟨hscope, x, hx, ?_⟩
    show u.ident.scheme.substUvars _ = _
    rw [hscheme]
    exact hg _ x hx

/-- A variable that refers to something is bound around it or known at the top level. -/
theorem Use.Refers.bound_or_known {g : Globals} {u : Use} (h : u.Refers g) :
    u.ident ∈ u.around ∨ ∃ x, g.entity? u.ident.name = some (.ident x) := by
  unfold Use.Refers at h
  split at h
  · next i hi => exact .inl (h ▸ mem_of_innermost? hi)
  · exact .inr ⟨h.2.choose, h.2.choose_spec.1⟩

end TypeLens.Typed
