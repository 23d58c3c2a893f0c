import Mathlib.Tactic.MkIffOfInductiveProp
import TypeLens.Concrete.Expr
import TypeLens.Proofs.Grammar.Patterns

/-!
The parsers of expressions read the grammar of expressions.
-/

namespace TypeLens.Concrete

instance : Inhabited Binder := ⟨.var default⟩

instance : Inhabited PatLhs := ⟨.con default default⟩

instance : Inhabited AtomicExpr := ⟨.var default⟩

instance : Inhabited ListTail := ⟨.close default⟩

instance : Inhabited AppliedExpr := ⟨.atom default⟩

instance : Inhabited Operation := ⟨.last default⟩

instance : Inhabited FullExpr := ⟨.operation default⟩

instance : Inhabited KeywordExpr := ⟨.lambda default default default default default⟩

instance : Inhabited CaseAlt := ⟨.mk default default default⟩

instance : Inhabited AltTail := ⟨.close default⟩

instance : Inhabited LetTail := ⟨.close default⟩

instance : Inhabited Equation := ⟨.mk default default default default⟩

instance : Inhabited LetBind := ⟨.equation default⟩

instance : Inhabited LetBinds := ⟨.single default⟩

/-- An equation for `b`, without that name. -/
@[mk_iff]
inductive EquationOf (b : Binder) : Equation → List Token → Prop
  | mk (ps : AtomicPats) (eq : Tok .equals) (rhs : FullExpr) :
    EquationOf b (.mk b ps eq rhs) (ps.yield ++ eq.token :: rhs.yield)

/-- `fn` with arguments after it. -/
def Arguments (fn : AppliedExpr) : Lang AppliedExpr := fun e us =>
  ∃ args : List AtomicExpr, e = args.foldl .app fn ∧ us = args.flatMap AtomicExpr.yield

def startsExpr (k : Terminal) : Bool := startsAtomicExpr k || startsKeywordExpr k

def startsLetBind (k : Terminal) : Bool := k == .varid || k == .conid || k == .lparen

theorem AtomicExpr.exists_yield (e : AtomicExpr) :
    ∃ t us, e.yield = t :: us ∧ startsAtomicExpr t.kind = true := by
  cases e <;> simp [AtomicExpr.yield, startsAtomicExpr]

theorem AppliedExpr.exists_yield :
    ∀ e : AppliedExpr, ∃ t us, e.yield = t :: us ∧ startsAtomicExpr t.kind = true
  | .atom e => by simpa [AppliedExpr.yield] using e.exists_yield
  | .app f a => by
    obtain ⟨t, us, hf, ht⟩ := f.exists_yield
    exact ⟨t, us ++ a.yield, by simp [AppliedExpr.yield, hf], ht⟩

theorem Operation.exists_yield (e : Operation) :
    ∃ t us, e.yield = t :: us ∧ startsAtomicExpr t.kind = true := by
  cases e with
  | last e => simpa [Operation.yield] using e.exists_yield
  | more e op rest =>
    obtain ⟨t, us, he, ht⟩ := e.exists_yield
    exact ⟨t, us ++ op.token :: rest.yield, by simp [Operation.yield, he], ht⟩
  | keyword e op last =>
    obtain ⟨t, us, he, ht⟩ := e.exists_yield
    exact ⟨t, us ++ op.token :: last.yield, by simp [Operation.yield, he], ht⟩

theorem KeywordExpr.exists_yield (e : KeywordExpr) :
    ∃ t us, e.yield = t :: us ∧ startsKeywordExpr t.kind = true := by
  cases e <;> simp [KeywordExpr.yield, startsKeywordExpr]

theorem FullExpr.exists_yield (e : FullExpr) :
    ∃ t us, e.yield = t :: us ∧ startsExpr t.kind = true := by
  cases e with
  | operation e =>
    obtain ⟨t, us, he, ht⟩ := e.exists_yield
    exact ⟨t, us, by simp [FullExpr.yield, he], by simp [startsExpr, ht]⟩
  | keyword e =>
    obtain ⟨t, us, he, ht⟩ := e.exists_yield
    exact ⟨t, us, by simp [FullExpr.yield, he], by simp [startsExpr, ht]⟩

theorem CaseAlt.exists_yield :
    ∀ a : CaseAlt, ∃ t us, a.yield = t :: us ∧ startsAtomicPat t.kind = true
  | .mk p arrow e => by
    obtain ⟨t, us, hp, ht⟩ := p.exists_yield
    exact ⟨t, us ++ arrow.token :: e.yield, by simp [CaseAlt.yield, hp], ht⟩

theorem ListTail.exists_yield (l : ListTail) :
    ∃ t us, l.yield = t :: us ∧ (t.kind == .comma || t.kind == .rbracket) = true := by
  cases l <;> simp [ListTail.yield]

theorem AltTail.exists_yield (l : AltTail) :
    ∃ t us, l.yield = t :: us ∧ (t.kind == .semi || t.kind == .rbrace) = true := by
  cases l <;> simp [AltTail.yield]

theorem LetTail.exists_yield (l : LetTail) :
    ∃ t us, l.yield = t :: us ∧ (t.kind == .semi || t.kind == .rbrace) = true := by
  cases l <;> simp [LetTail.yield]

theorem LetBind.exists_yield (b : LetBind) :
    ∃ t us, b.yield = t :: us ∧ startsLetBind t.kind = true := by
  rcases b with ⟨⟨_ | _, ps, eq, e⟩⟩ | ⟨⟨_ | _, eq, e⟩⟩ <;>
    simp [LetBind.yield, Equation.yield, PatEquation.yield, Binder.yield, PatLhs.yield,
      startsLetBind]

theorem LetBinds.exists_yield (b : LetBinds) :
    ∃ t us, b.yield = t :: us ∧ (t.kind == .lbrace || startsLetBind t.kind) = true := by
  cases b with
  | single b =>
    obtain ⟨t, us, hb, ht⟩ := b.exists_yield
    exact ⟨t, us, by simp [LetBinds.yield, hb], by simp [ht]⟩
  | block l b rest => simp [LetBinds.yield]

theorem yield_foldl_arguments (fn : AppliedExpr) (args : List AtomicExpr) :
    (args.foldl AppliedExpr.app fn).yield = fn.yield ++ args.flatMap AtomicExpr.yield := by
  induction args generalizing fn with
  | nil => simp
  | cons a args ih => simp [ih, AppliedExpr.yield]

theorem AppliedExpr.exists_foldl :
    ∀ e : AppliedExpr, ∃ a args, e = List.foldl .app (.atom a) args
  | .atom a => ⟨a, [], rfl⟩
  | .app f a => by
    obtain ⟨b, args, rfl⟩ := f.exists_foldl
    exact ⟨b, args ++ [a], by simp⟩

/-- The kinds of token that go on with an expression. -/
def moreExpr (k : Terminal) : Bool := startsAtomicExpr k || k == .operator

namespace Shape

def atomicExpr : Shape := ⟨startsAtomicExpr, false, fun _ => false⟩

def listTail : Shape := ⟨fun k => k == .comma || k == .rbracket, false, fun _ => false⟩

def appliedExpr : Shape := ⟨startsAtomicExpr, false, startsAtomicExpr⟩

def arguments : Shape := ⟨startsAtomicExpr, true, startsAtomicExpr⟩

def operation : Shape := ⟨startsAtomicExpr, false, moreExpr⟩

def keywordExpr : Shape := ⟨startsKeywordExpr, false, moreExpr⟩

def fullExpr : Shape := ⟨startsExpr, false, moreExpr⟩

def caseAlt : Shape := ⟨startsAtomicPat, false, moreExpr⟩

/-- What follows an item between braces. -/
def itemTail : Shape := ⟨fun k => k == .semi || k == .rbrace, false, fun _ => false⟩

def letBinds : Shape := ⟨fun k => k == .lbrace || startsLetBind k, false, moreExpr⟩

def letBind : Shape := ⟨startsLetBind, false, moreExpr⟩

def equation : Shape := ⟨fun k => startsAtomicPat k || k == .equals, false, moreExpr⟩

def patEquation : Shape := ⟨(· == .equals), false, moreExpr⟩

end Shape

theorem AtomicExpr.hasShape : (Lang.ofYield AtomicExpr.yield).HasShape .atomicExpr :=
  Lang.hasShape_ofYield default AtomicExpr.exists_yield

theorem ListTail.hasShape : (Lang.ofYield ListTail.yield).HasShape .listTail :=
  Lang.hasShape_ofYield default ListTail.exists_yield

theorem AppliedExpr.hasShape : (Lang.ofYield AppliedExpr.yield).HasShape .appliedExpr :=
  Lang.hasShape_ofYield default AppliedExpr.exists_yield

theorem Arguments.hasShape (fn : AppliedExpr) : (Arguments fn).HasShape .arguments where
  nonempty := ⟨fn, [], [], rfl, rfl⟩
  first := by
    rintro e u us ⟨_ | ⟨a, args⟩, -, h⟩
    · cases h
    · obtain ⟨v, vs, hv, hk⟩ := a.exists_yield
      obtain ⟨rfl, -⟩ := by simpa [hv] using h
      exact hk
  null _ _ := rfl

theorem Operation.hasShape : (Lang.ofYield Operation.yield).HasShape .operation :=
  Lang.hasShape_ofYield default Operation.exists_yield

theorem KeywordExpr.hasShape : (Lang.ofYield KeywordExpr.yield).HasShape .keywordExpr :=
  Lang.hasShape_ofYield default KeywordExpr.exists_yield

theorem FullExpr.hasShape : (Lang.ofYield FullExpr.yield).HasShape .fullExpr :=
  Lang.hasShape_ofYield default FullExpr.exists_yield

theorem CaseAlt.hasShape : (Lang.ofYield CaseAlt.yield).HasShape .caseAlt :=
  Lang.hasShape_ofYield default CaseAlt.exists_yield

theorem AltTail.hasShape : (Lang.ofYield AltTail.yield).HasShape .itemTail :=
  Lang.hasShape_ofYield default AltTail.exists_yield

theorem LetBinds.hasShape : (Lang.ofYield LetBinds.yield).HasShape .letBinds :=
  Lang.hasShape_ofYield default LetBinds.exists_yield

theorem LetTail.hasShape : (Lang.ofYield LetTail.yield).HasShape .itemTail :=
  Lang.hasShape_ofYield default LetTail.exists_yield

theorem LetBind.hasShape : (Lang.ofYield LetBind.yield).HasShape .letBind :=
  Lang.hasShape_ofYield default LetBind.exists_yield

theorem EquationOf.hasShape (b : Binder) : Lang.HasShape (EquationOf b) .equation where
  nonempty := ⟨_, _, .mk default default default⟩
  first := by
    intro e t us h
    obtain ⟨ps, eq, rhs, -, h⟩ := (equationOf_iff b e _).mp h
    cases ps with
    | nil =>
      obtain ⟨rfl, -⟩ := by simpa [AtomicPats.yield] using h
      rfl
    | cons p rest =>
      obtain ⟨v, vs, hv, hk⟩ := p.exists_yield
      obtain ⟨rfl, -⟩ := by simpa [AtomicPats.yield, hv] using h
      simp [Shape.equation, hk]
  null := by
    intro e h
    obtain ⟨ps, eq, rhs, -, h⟩ := (equationOf_iff b e _).mp h
    simp at h

section

variable {n fuel : Nat}
  (hf : Parses (n - 1) (fullExpr fuel) (.ofYield FullExpr.yield) .fullExpr)

include hf

theorem parses_atomicExpr (ht : Parses (n - 1) (listTail fuel) (.ofYield ListTail.yield) .listTail) :
    Parses n (atomicExpr (fuel + 1)) (.ofYield AtomicExpr.yield) .atomicExpr := by
  unfold atomicExpr
  refine .peek AtomicExpr.hasShape fun k => ?_
  split
  case h_1 | h_2 | h_3 | h_4 =>
    refine .of_kind (by decide) (.map (.tok _) _) AtomicExpr.hasShape ?_
    rintro (_ | _ | _ | _ | _ | _ | _ | _) us <;> simp [AtomicExpr.yield]
  case h_5 =>
    refine .of_kind (by decide) (.tok_bind _ fun l => .peek_or .operator rfl (fun _ _ => by split <;> trivial) (by decide)
      (.tok_bind .operator fun n => .map (.tok .rparen) _)
      (hf.bind (by decide) fun e => .map (.tok .rparen) _)) AtomicExpr.hasShape ?_
    rintro (_ | _ | _ | _ | _ | _ | _ | _) us <;> simp [AtomicExpr.yield]
  case h_6 =>
    refine .of_kind (by decide) (.tok_bind _ fun l => .peek_or .rbracket rfl (fun _ _ => by split <;> trivial) (by decide)
      (.map (.tok .rbracket) _) (hf.bind (by decide) fun e => ht.map _)) AtomicExpr.hasShape ?_
    rintro (_ | _ | _ | _ | _ | _ | _ | _) us <;> simp [AtomicExpr.yield]
  case h_7 =>
    refine .fail rfl AtomicExpr.hasShape ?_
    rintro j rfl
    cases j <;> simp_all [Shape.atomicExpr, startsAtomicExpr]

theorem parses_listTail (ht : Parses (n - 1) (listTail fuel) (.ofYield ListTail.yield) .listTail) :
    Parses n (listTail (fuel + 1)) (.ofYield ListTail.yield) .listTail := by
  unfold listTail
  refine .congr (.peek_or .comma rfl (fun _ _ => by split <;> trivial) (by decide) (.tok_bind .comma fun c => hf.bind (by decide) fun e => ht.map _)
    (.map (.tok .rbracket) _)) ?_ (by decide)
  rintro (_ | _) us <;> simp [ListTail.yield]

theorem parses_keywordExpr
    (hb : Parses (n - 1) (letBinds fuel) (.ofYield LetBinds.yield) .letBinds)
    (ha : Parses (n - 1) (caseAlt fuel) (.ofYield CaseAlt.yield) .caseAlt)
    (ht : Parses (n - 1) (altTail fuel) (.ofYield AltTail.yield) .itemTail) :
    Parses n (keywordExpr (fuel + 1)) (.ofYield KeywordExpr.yield) .keywordExpr := by
  unfold keywordExpr
  have hf' : Parses (n - 1 - 1) (fullExpr fuel) (.ofYield FullExpr.yield) .fullExpr :=
    hf.mono (Nat.sub_le _ 1)
  refine .peek KeywordExpr.hasShape fun k => ?_
  split
  case h_1 =>
    refine .of_kind (by decide) (.tok_bind _ fun bs => budgeted_atomicPat.bind (by decide) fun p =>
      budgeted_atomicPats.bind (by decide) fun ps => .tok_bind .arrow fun arrow => hf'.map _)
      KeywordExpr.hasShape ?_
    rintro (_ | _ | _ | _) us <;> simp [KeywordExpr.yield]
  case h_2 =>
    refine .of_kind (by decide) (.tok_bind _ fun kw => hb.bind (by decide) fun binds => .tok_bind .kwIn fun inKw => hf'.map _)
      KeywordExpr.hasShape ?_
    rintro (_ | _ | _ | _) us <;> simp [KeywordExpr.yield]
  case h_3 =>
    refine .of_kind (by decide) (.tok_bind _ fun ifKw => hf.bind (by decide) fun c => .tok_bind .kwThen fun thenKw =>
      hf'.bind (by decide) fun y => .tok_bind .kwElse fun elseKw => .map (hf'.mono (Nat.sub_le _ 1)) _)
      KeywordExpr.hasShape ?_
    rintro (_ | _ | _ | _) us <;> simp [KeywordExpr.yield]
  case h_4 =>
    refine .of_kind (by decide) (.tok_bind _ fun kw => hf.bind (by decide) fun s => .tok_bind .kwOf fun ofKw =>
      .tok_bind .lbrace fun l => .bind (ha.mono (by omega)) (by decide) fun a => .map (ht.mono (by omega)) _)
      KeywordExpr.hasShape ?_
    rintro (_ | _ | _ | _) us <;> simp [KeywordExpr.yield]
  case h_5 =>
    refine .fail rfl KeywordExpr.hasShape ?_
    rintro j rfl
    cases j <;> simp_all [Shape.keywordExpr, startsKeywordExpr]

end

/-- An equation that matches against `lhs`, without that pattern. -/
@[mk_iff]
inductive PatEquationOf (lhs : PatLhs) : PatEquation → List Token → Prop
  | mk (eq : Tok .equals) (rhs : FullExpr) :
    PatEquationOf lhs (.mk lhs eq rhs) (eq.token :: rhs.yield)

theorem PatEquationOf.hasShape (lhs : PatLhs) :
    Lang.HasShape (PatEquationOf lhs) .patEquation where
  nonempty := ⟨_, _, .mk default default⟩
  first := by
    rintro e t us ⟨eq, rhs⟩
    rfl
  null := by
    rintro e ⟨⟩

section

variable {n fuel : Nat}
  (hf : Parses (n - 1) (fullExpr fuel) (.ofYield FullExpr.yield) .fullExpr)

include hf

theorem parses_patEquation (lhs : PatLhs) :
    Parses n (patEquation (fuel + 1) lhs) (PatEquationOf lhs) .patEquation := by
  unfold patEquation
  refine .congr (.tok_bind .equals fun eq => hf.map _) ?_ (by decide)
  rintro ⟨l, eq, rhs⟩ us
  simp [patEquationOf_iff]

theorem parses_equation (b : Binder) :
    Parses n (equation (fuel + 1) b) (EquationOf b) .equation := by
  unfold equation
  refine .congr (budgeted_atomicPats.bind (by decide) fun ps => .tok_bind .equals fun eq => hf.map _) ?_
    (by decide)
  rintro ⟨b', ps, eq, rhs⟩ us
  simp [equationOf_iff]

theorem parses_caseAlt : Parses n (caseAlt (fuel + 1)) (.ofYield CaseAlt.yield) .caseAlt := by
  unfold caseAlt
  refine .congr (budgeted_fullPat.bind (by decide) fun p => .tok_bind .arrow fun arrow => hf.map _) ?_
    (by decide)
  rintro ⟨p, arrow, e⟩ us
  simp [CaseAlt.yield]

end

/-- The budgets that suffice for fewer than `n` tokens. -/
structure ParsesExpressions (fuel : Nat) : Prop where
  atomicExpr : ∀ {n}, 8 * n + 1 ≤ fuel + 8 →
    Parses n (atomicExpr fuel) (.ofYield AtomicExpr.yield) .atomicExpr
  listTail : ∀ {n}, 8 * n + 1 ≤ fuel + 8 →
    Parses n (listTail fuel) (.ofYield ListTail.yield) .listTail
  appliedExpr : ∀ {n}, 8 * n + 3 ≤ fuel + 8 →
    Parses n (appliedExpr fuel) (.ofYield AppliedExpr.yield) .appliedExpr
  arguments : ∀ {n}, 8 * n + 2 ≤ fuel + 8 → ∀ fn,
    Parses n (arguments fuel fn) (Arguments fn) .arguments
  operation : ∀ {n}, 8 * n + 4 ≤ fuel + 8 →
    Parses n (operation fuel) (.ofYield Operation.yield) .operation
  keywordExpr : ∀ {n}, 8 * n + 1 ≤ fuel + 8 →
    Parses n (keywordExpr fuel) (.ofYield KeywordExpr.yield) .keywordExpr
  fullExpr : ∀ {n}, 8 * n + 5 ≤ fuel + 8 →
    Parses n (fullExpr fuel) (.ofYield FullExpr.yield) .fullExpr
  caseAlt : ∀ {n}, 8 * n + 1 ≤ fuel + 8 →
    Parses n (caseAlt fuel) (.ofYield CaseAlt.yield) .caseAlt
  altTail : ∀ {n}, 8 * n + 1 ≤ fuel + 8 →
    Parses n (altTail fuel) (.ofYield AltTail.yield) .itemTail
  letBinds : ∀ {n}, 8 * n + 2 ≤ fuel + 8 →
    Parses n (letBinds fuel) (.ofYield LetBinds.yield) .letBinds
  letTail : ∀ {n}, 8 * n + 1 ≤ fuel + 8 →
    Parses n (letTail fuel) (.ofYield LetTail.yield) .itemTail
  letBind : ∀ {n}, 8 * n + 1 ≤ fuel + 8 →
    Parses n (letBind fuel) (.ofYield LetBind.yield) .letBind
  equation : ∀ {n}, 8 * n + 1 ≤ fuel + 8 → ∀ b,
    Parses n (equation fuel b) (EquationOf b) .equation
  patEquation : ∀ {n}, 8 * n + 1 ≤ fuel + 8 → ∀ lhs,
    Parses n (patEquation fuel lhs) (PatEquationOf lhs) .patEquation

section

variable {n fuel : Nat}

theorem parses_appliedExpr
    (ha : Parses n (atomicExpr fuel) (.ofYield AtomicExpr.yield) .atomicExpr)
    (hs : ∀ fn, Parses n (arguments fuel fn) (Arguments fn) .arguments) :
    Parses n (appliedExpr (fuel + 1)) (.ofYield AppliedExpr.yield) .appliedExpr := by
  unfold appliedExpr
  refine .congr (ha.bind (by decide) fun e => hs (.atom e)) ?_ (by decide)
  intro e us
  simp only [Lang.bind_iff, Lang.ofYield_iff, Arguments]
  constructor
  · rintro ⟨a, _, rfl, _, ⟨args, rfl, rfl⟩, rfl⟩
    simp [yield_foldl_arguments, AppliedExpr.yield]
  · rintro rfl
    obtain ⟨a, args, rfl⟩ := e.exists_foldl
    exact ⟨a, _, rfl, _, ⟨args, rfl, rfl⟩, by simp [yield_foldl_arguments, AppliedExpr.yield]⟩

theorem parses_arguments (fn : AppliedExpr)
    (ha : Parses n (atomicExpr fuel) (.ofYield AtomicExpr.yield) .atomicExpr)
    (hs : ∀ fn, Parses (n - 1) (arguments fuel fn) (Arguments fn) .arguments) :
    Parses n (arguments (fuel + 1) fn) (Arguments fn) .arguments := by
  unfold arguments
  refine .congr (.peek_if startsAtomicExpr (by decide)
    (ha.bind_shorter (by decide) fun e => hs (.app fn e)) (.pure fn) fun _ => rfl) ?_ (by decide)
  intro e us
  simp only [Lang.or_iff, Lang.bind_iff, Lang.ofYield_iff, Lang.single_iff, Arguments]
  constructor
  · rintro (⟨a, _, rfl, _, ⟨args, rfl, rfl⟩, rfl⟩ | ⟨rfl, rfl⟩)
    · exact ⟨a :: args, by simp⟩
    · exact ⟨[], by simp⟩
  · rintro ⟨_ | ⟨a, args⟩, rfl, rfl⟩
    · exact .inr ⟨rfl, rfl⟩
    · exact .inl ⟨a, _, rfl, _, ⟨args, rfl, rfl⟩, rfl⟩

theorem parses_operation
    (ha : Parses n (appliedExpr fuel) (.ofYield AppliedExpr.yield) .appliedExpr)
    (hk : Parses (n - 1) (keywordExpr fuel) (.ofYield KeywordExpr.yield) .keywordExpr)
    (ho : Parses (n - 1) (operation fuel) (.ofYield Operation.yield) .operation) :
    Parses n (operation (fuel + 1)) (.ofYield Operation.yield) .operation := by
  unfold operation
  refine .congr (ha.bind (by decide) fun e => .peek_or .operator rfl (fun _ _ => by split <;> trivial) (by decide)
    (.tok_bind .operator fun op =>
      .peek_if startsKeywordExpr (by decide) (hk.map _) (ho.map _) fun _ => rfl)
    (.pure (.last e))) ?_ (by decide)
  rintro (_ | _ | _) us <;> simp [Operation.yield]

theorem parses_fullExpr
    (hk : Parses n (keywordExpr fuel) (.ofYield KeywordExpr.yield) .keywordExpr)
    (ho : Parses n (operation fuel) (.ofYield Operation.yield) .operation) :
    Parses n (fullExpr (fuel + 1)) (.ofYield FullExpr.yield) .fullExpr := by
  unfold fullExpr
  refine .congr (.peek_if startsKeywordExpr (by decide) (hk.map _) (ho.map _) fun _ => rfl) ?_
    (by decide)
  rintro (_ | _) us <;> simp [FullExpr.yield]

theorem parses_altTail
    (ha : Parses (n - 1) (caseAlt fuel) (.ofYield CaseAlt.yield) .caseAlt)
    (ht : Parses (n - 1) (altTail fuel) (.ofYield AltTail.yield) .itemTail) :
    Parses n (altTail (fuel + 1)) (.ofYield AltTail.yield) .itemTail := by
  unfold altTail
  refine .congr (.peek_or .semi rfl (fun _ _ => by split <;> trivial) (by decide) (.tok_bind .semi fun s => .peek_or .rbrace rfl (fun _ _ => by split <;> trivial) (by decide)
    (.map (.tok .rbrace) _) (ha.bind (by decide) fun a => ht.map _)) (.map (.tok .rbrace) _)) ?_ (by decide)
  rintro (_ | _ | _) us <;> simp [AltTail.yield]

theorem parses_letTail
    (hb : Parses (n - 1) (letBind fuel) (.ofYield LetBind.yield) .letBind)
    (ht : Parses (n - 1) (letTail fuel) (.ofYield LetTail.yield) .itemTail) :
    Parses n (letTail (fuel + 1)) (.ofYield LetTail.yield) .itemTail := by
  unfold letTail
  refine .congr (.peek_or .semi rfl (fun _ _ => by split <;> trivial) (by decide) (.tok_bind .semi fun s => .peek_or .rbrace rfl (fun _ _ => by split <;> trivial) (by decide)
    (.map (.tok .rbrace) _) (hb.bind (by decide) fun b => ht.map _)) (.map (.tok .rbrace) _)) ?_ (by decide)
  rintro (_ | _ | _) us <;> simp [LetTail.yield]

theorem parses_letBinds (hb : Parses n (letBind fuel) (.ofYield LetBind.yield) .letBind)
    (ht : Parses (n - 1) (letTail fuel) (.ofYield LetTail.yield) .itemTail) :
    Parses n (letBinds (fuel + 1)) (.ofYield LetBinds.yield) .letBinds := by
  unfold letBinds
  refine .congr (.peek_or .lbrace rfl (fun _ _ => by split <;> trivial) (by decide)
    (.tok_bind .lbrace fun l => .bind (hb.mono (Nat.sub_le _ 1)) (by decide) fun b => ht.map _)
    (hb.map _)) ?_ (by decide)
  rintro (_ | _) us <;> simp [LetBinds.yield]

theorem parses_letBind
    (he : ∀ b, Parses (n - 1) (equation fuel b) (EquationOf b) .equation)
    (hp : ∀ lhs, Parses (n - 1) (patEquation fuel lhs) (PatEquationOf lhs) .patEquation) :
    Parses n (letBind (fuel + 1)) (.ofYield LetBind.yield) .letBind := by
  unfold letBind
  refine .peek LetBind.hasShape fun k => ?_
  split
  case h_1 =>
    refine .of_kind (by decide) (.tok_bind _ fun n => (he (.var n)).map _) LetBind.hasShape ?_
    rintro (⟨_ | _, ps, eq, e⟩ | ⟨_ | _, eq, e⟩) us <;>
      simp [LetBind.yield, Equation.yield, PatEquation.yield, Binder.yield, PatLhs.yield, equationOf_iff]
  case h_2 =>
    refine .of_kind (by decide) (.tok_bind _ fun c => budgeted_atomicPats.bind (by decide) fun args =>
      (hp (.con c args)).map _) LetBind.hasShape ?_
    rintro (⟨_ | _, ps, eq, e⟩ | ⟨_ | _, eq, e⟩) us <;>
      simp [LetBind.yield, Equation.yield, PatEquation.yield, Binder.yield, PatLhs.yield,
        patEquationOf_iff]
  case h_3 =>
    refine .of_kind (by decide) (.tok_bind _ fun l => .peek_or .operator rfl (fun _ _ => by split <;> trivial) (by decide)
      (.tok_bind .operator fun n => .tok_bind .rparen fun r =>
        .map ((he (.op l n r)).mono (by omega)) _)
      (budgeted_fullPat.bind (by decide) fun p => .tok_bind .rparen fun r =>
        .map ((hp (.paren l p r)).mono (by omega)) _)) LetBind.hasShape ?_
    rintro (⟨_ | _, ps, eq, e⟩ | ⟨_ | _, eq, e⟩) us <;>
      simp [LetBind.yield, Equation.yield, PatEquation.yield, Binder.yield, PatLhs.yield,
        equationOf_iff,
        patEquationOf_iff]
  case h_4 =>
    refine .fail rfl LetBind.hasShape ?_
    rintro j rfl
    cases j <;> simp_all [Shape.letBind, startsLetBind]

/-- By induction on the budget: each parser calls the others with less of it, and gets back to
itself only after a token. -/
theorem parsesExpressions (fuel : Nat) : ParsesExpressions fuel := by
  induction fuel with
  | zero =>
    have none {n h : Nat} (hn : 8 * n + h ≤ 0 + 8) (hh : 0 < h) : n = 0 := by omega
    constructor <;> intro n hn <;> obtain rfl := none hn (by decide)
    case atomicExpr => exact .zero AtomicExpr.hasShape
    case listTail => exact .zero ListTail.hasShape
    case appliedExpr => exact .zero AppliedExpr.hasShape
    case arguments => exact fun fn => .zero (Arguments.hasShape fn)
    case operation => exact .zero Operation.hasShape
    case keywordExpr => exact .zero KeywordExpr.hasShape
    case fullExpr => exact .zero FullExpr.hasShape
    case caseAlt => exact .zero CaseAlt.hasShape
    case altTail => exact .zero AltTail.hasShape
    case letBinds => exact .zero LetBinds.hasShape
    case letTail => exact .zero LetTail.hasShape
    case letBind => exact .zero LetBind.hasShape
    case equation => exact fun b => .zero (EquationOf.hasShape b)
    case patEquation => exact fun lhs => .zero (PatEquationOf.hasShape lhs)
  | succ fuel ih =>
    constructor <;> intro n hn
    case atomicExpr => exact parses_atomicExpr (ih.fullExpr (by omega)) (ih.listTail (by omega))
    case listTail => exact parses_listTail (ih.fullExpr (by omega)) (ih.listTail (by omega))
    case appliedExpr => exact parses_appliedExpr (ih.atomicExpr (by omega)) (ih.arguments (by omega))
    case arguments =>
      intro fn
      exact parses_arguments fn (ih.atomicExpr (by omega)) (ih.arguments (by omega))
    case operation =>
      exact parses_operation (ih.appliedExpr (by omega)) (ih.keywordExpr (by omega))
        (ih.operation (by omega))
    case keywordExpr =>
      exact parses_keywordExpr (ih.fullExpr (by omega)) (ih.letBinds (by omega))
        (ih.caseAlt (by omega)) (ih.altTail (by omega))
    case fullExpr => exact parses_fullExpr (ih.keywordExpr (by omega)) (ih.operation (by omega))
    case caseAlt => exact parses_caseAlt (ih.fullExpr (by omega))
    case altTail => exact parses_altTail (ih.caseAlt (by omega)) (ih.altTail (by omega))
    case letBinds => exact parses_letBinds (ih.letBind (by omega)) (ih.letTail (by omega))
    case letTail => exact parses_letTail (ih.letBind (by omega)) (ih.letTail (by omega))
    case letBind => exact parses_letBind (ih.equation (by omega)) (ih.patEquation (by omega))
    case equation =>
      intro b
      exact parses_equation (ih.fullExpr (by omega)) b
    case patEquation =>
      intro lhs
      exact parses_patEquation (ih.fullExpr (by omega)) lhs

theorem budgeted_equation (b : Binder) :
    Parses n (Parser.budgeted (equation · b)) (EquationOf b) .equation :=
  .budgeted fun _ => (parsesExpressions _).equation (by omega) b

theorem budgeted_patEquation (lhs : PatLhs) :
    Parses n (Parser.budgeted (patEquation · lhs)) (PatEquationOf lhs) .patEquation :=
  .budgeted fun _ => (parsesExpressions _).patEquation (by omega) lhs

end

end TypeLens.Concrete
