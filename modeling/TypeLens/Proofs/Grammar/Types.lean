import TypeLens.Concrete.Type
import TypeLens.Proofs.Grammar.Prediction

/-!
The parsers of types read the grammar of types.
-/

namespace TypeLens.Concrete

instance : Inhabited AtomicTy := ⟨.con default⟩

instance : Inhabited AppliedTy := ⟨.atom default⟩

instance : Inhabited FullTy := ⟨.plain default⟩

instance : Inhabited TupleTail := ⟨.last default default⟩

theorem AtomicTy.exists_yield (a : AtomicTy) :
    ∃ t us, a.yield = t :: us ∧ startsAtomicTy t.kind = true := by
  cases a <;> simp [AtomicTy.yield, startsAtomicTy]

theorem AppliedTy.exists_yield :
    ∀ a : AppliedTy, ∃ t us, a.yield = t :: us ∧ startsAtomicTy t.kind = true
  | .atom a => by simpa [AppliedTy.yield] using a.exists_yield
  | .app f a => by
    obtain ⟨t, us, hf, ht⟩ := f.exists_yield
    exact ⟨t, us ++ a.yield, by simp [AppliedTy.yield, hf], ht⟩

theorem FullTy.exists_yield (a : FullTy) :
    ∃ t us, a.yield = t :: us ∧ startsAtomicTy t.kind = true := by
  cases a with
  | plain t => simpa [FullTy.yield] using t.exists_yield
  | fn a arrow r =>
    obtain ⟨t, us, ha, ht⟩ := a.exists_yield
    exact ⟨t, us ++ arrow.token :: r.yield, by simp [FullTy.yield, ha], ht⟩

theorem TupleTail.exists_yield (a : TupleTail) :
    ∃ t us, a.yield = t :: us ∧ startsAtomicTy t.kind = true := by
  cases a with
  | last a r =>
    obtain ⟨t, us, ha, ht⟩ := a.exists_yield
    exact ⟨t, us ++ [r.token], by simp [TupleTail.yield, ha], ht⟩
  | more a c rest =>
    obtain ⟨t, us, ha, ht⟩ := a.exists_yield
    exact ⟨t, us ++ c.token :: rest.yield, by simp [TupleTail.yield, ha], ht⟩

/-- `fn` with arguments after it. -/
def Applications (fn : AppliedTy) : Lang AppliedTy := fun t us =>
  ∃ args : List AtomicTy, t = args.foldl .app fn ∧ us = args.flatMap AtomicTy.yield

/-- `arg` alone, or a function from it. -/
def FunctionTy (arg : AppliedTy) : Lang FullTy := fun t us =>
  (∃ arrow res, t = .fn arg arrow res ∧ us = arrow.token :: res.yield) ∨ t = .plain arg ∧ us = []

theorem yield_foldl_app (fn : AppliedTy) (args : List AtomicTy) :
    (args.foldl AppliedTy.app fn).yield = fn.yield ++ args.flatMap AtomicTy.yield := by
  induction args generalizing fn with
  | nil => simp
  | cons a args ih => simp [ih, AppliedTy.yield]

theorem AppliedTy.exists_foldl : ∀ t : AppliedTy, ∃ a args, t = List.foldl .app (.atom a) args
  | .atom a => ⟨a, [], rfl⟩
  | .app f a => by
    obtain ⟨b, args, rfl⟩ := f.exists_foldl
    exact ⟨b, args ++ [a], by simp⟩

namespace Shape

def atomicTy : Shape := ⟨startsAtomicTy, false, fun _ => false⟩

def appliedTy : Shape := ⟨startsAtomicTy, false, startsAtomicTy⟩

def fullTy : Shape := ⟨startsAtomicTy, false, fun k => startsAtomicTy k || k == .arrow⟩

def applications : Shape := ⟨startsAtomicTy, true, startsAtomicTy⟩

def functionTy : Shape := ⟨(· == .arrow), true, fun k => startsAtomicTy k || k == .arrow⟩

end Shape

/-- The budgets that suffice for fewer than `n` tokens. -/
structure ParsesTypes (fuel : Nat) : Prop where
  atomicTy : ∀ {n}, 8 * n + 1 ≤ fuel + 8 →
    Parses n (atomicTy fuel) (.ofYield AtomicTy.yield) .atomicTy
  tupleTail : ∀ {n}, 8 * n + 5 ≤ fuel + 8 →
    Parses n (tupleTail fuel) (.ofYield TupleTail.yield) .atomicTy
  appliedTy : ∀ {n}, 8 * n + 3 ≤ fuel + 8 →
    Parses n (appliedTy fuel) (.ofYield AppliedTy.yield) .appliedTy
  applications : ∀ {n}, 8 * n + 2 ≤ fuel + 8 → ∀ fn,
    Parses n (applications fuel fn) (Applications fn) .applications
  fullTy : ∀ {n}, 8 * n + 4 ≤ fuel + 8 →
    Parses n (fullTy fuel) (.ofYield FullTy.yield) .fullTy
  functionTy : ∀ {n}, 8 * n + 1 ≤ fuel + 8 → ∀ arg,
    Parses n (functionTy fuel arg) (FunctionTy arg) .functionTy

theorem AtomicTy.hasShape : (Lang.ofYield AtomicTy.yield).HasShape .atomicTy :=
  Lang.hasShape_ofYield default AtomicTy.exists_yield

theorem TupleTail.hasShape : (Lang.ofYield TupleTail.yield).HasShape .atomicTy :=
  Lang.hasShape_ofYield default TupleTail.exists_yield

theorem AppliedTy.hasShape : (Lang.ofYield AppliedTy.yield).HasShape .appliedTy :=
  Lang.hasShape_ofYield default AppliedTy.exists_yield

theorem FullTy.hasShape : (Lang.ofYield FullTy.yield).HasShape .fullTy :=
  Lang.hasShape_ofYield default FullTy.exists_yield

theorem Applications.hasShape (fn : AppliedTy) : (Applications fn).HasShape .applications where
  nonempty := ⟨fn, [], [], rfl, rfl⟩
  first := by
    rintro t u us ⟨_ | ⟨a, args⟩, -, h⟩
    · cases h
    · obtain ⟨v, vs, hv, hk⟩ := a.exists_yield
      obtain ⟨rfl, -⟩ := by simpa [hv] using h
      exact hk
  null _ _ := rfl

theorem FunctionTy.hasShape (arg : AppliedTy) : (FunctionTy arg).HasShape .functionTy where
  nonempty := ⟨_, _, .inr ⟨rfl, rfl⟩⟩
  first := by
    rintro t u us (⟨arrow, res, -, h⟩ | ⟨-, h⟩)
    · obtain ⟨rfl, -⟩ := List.cons.inj h
      rfl
    · cases h
  null _ _ := rfl

variable {n fuel : Nat}

theorem parses_atomicTy (hf : Parses (n - 1) (fullTy fuel) (.ofYield FullTy.yield) .fullTy)
    (ht : Parses (n - 1) (tupleTail fuel) (.ofYield TupleTail.yield) .atomicTy) :
    Parses n (atomicTy (fuel + 1)) (.ofYield AtomicTy.yield) .atomicTy := by
  unfold atomicTy
  refine .peek AtomicTy.hasShape fun k => ?_
  split
  case h_1 | h_2 =>
    refine .of_kind (by decide) (.map (.tok _) _) AtomicTy.hasShape ?_
    rintro (_ | _ | _ | _ | _) us <;> simp [AtomicTy.yield]
  case h_3 =>
    refine .of_kind (by decide) (.tok_bind _ fun l => hf.bind (by decide) fun t => .map (.tok _) _)
      AtomicTy.hasShape ?_
    rintro (_ | _ | _ | _ | _) us <;> simp [AtomicTy.yield]
  case h_4 =>
    refine .of_kind (by decide) (.tok_bind _ fun l => hf.bind (by decide) fun t => .peek_or .comma rfl (fun _ _ => by split <;> trivial) (by decide)
      (.tok_bind .comma fun c => .map (ht.mono (Nat.sub_le _ 1)) _)
      (.map (.tok .rparen) _)) AtomicTy.hasShape ?_
    rintro (_ | _ | _ | _ | _) us <;> simp [AtomicTy.yield]
  case h_5 =>
    refine .fail rfl AtomicTy.hasShape ?_
    rintro j rfl
    cases j <;> simp_all [Shape.atomicTy, startsAtomicTy]

theorem parses_tupleTail (hf : Parses n (fullTy fuel) (.ofYield FullTy.yield) .fullTy)
    (ht : Parses (n - 1) (tupleTail fuel) (.ofYield TupleTail.yield) .atomicTy) :
    Parses n (tupleTail (fuel + 1)) (.ofYield TupleTail.yield) .atomicTy := by
  unfold tupleTail
  refine .congr (hf.bind (by decide) fun t => .peek_or .comma rfl (fun _ _ => by split <;> trivial) (by decide)
    (.tok_bind .comma fun c => ht.map _)
    (.map (.tok .rparen) _)) ?_ (by decide)
  rintro (_ | _) us <;> simp [TupleTail.yield]

theorem parses_appliedTy (ha : Parses n (atomicTy fuel) (.ofYield AtomicTy.yield) .atomicTy)
    (hs : ∀ fn, Parses n (applications fuel fn) (Applications fn) .applications) :
    Parses n (appliedTy (fuel + 1)) (.ofYield AppliedTy.yield) .appliedTy := by
  unfold appliedTy
  refine .congr (ha.bind (by decide) fun t => hs (.atom t)) ?_ (by decide)
  intro t us
  simp only [Lang.bind_iff, Lang.ofYield_iff, Applications]
  constructor
  · rintro ⟨a, _, rfl, _, ⟨args, rfl, rfl⟩, rfl⟩
    simp [yield_foldl_app, AppliedTy.yield]
  · rintro rfl
    obtain ⟨a, args, rfl⟩ := t.exists_foldl
    exact ⟨a, _, rfl, _, ⟨args, rfl, rfl⟩, by simp [yield_foldl_app, AppliedTy.yield]⟩

theorem parses_applications (fn : AppliedTy)
    (ha : Parses n (atomicTy fuel) (.ofYield AtomicTy.yield) .atomicTy)
    (hs : ∀ fn, Parses (n - 1) (applications fuel fn) (Applications fn) .applications) :
    Parses n (applications (fuel + 1) fn) (Applications fn) .applications := by
  unfold applications
  refine .congr (.peek_if startsAtomicTy (by decide)
    (ha.bind_shorter (by decide) fun t => hs (.app fn t)) (.pure fn) fun _ => rfl) ?_ (by decide)
  intro t us
  simp only [Lang.or_iff, Lang.bind_iff, Lang.ofYield_iff, Lang.single_iff, Applications]
  constructor
  · rintro (⟨a, _, rfl, _, ⟨args, rfl, rfl⟩, rfl⟩ | ⟨rfl, rfl⟩)
    · exact ⟨a :: args, by simp⟩
    · exact ⟨[], by simp⟩
  · rintro ⟨_ | ⟨a, args⟩, rfl, rfl⟩
    · exact .inr ⟨rfl, rfl⟩
    · exact .inl ⟨a, _, rfl, _, ⟨args, rfl, rfl⟩, rfl⟩

theorem parses_fullTy (ha : Parses n (appliedTy fuel) (.ofYield AppliedTy.yield) .appliedTy)
    (hf : ∀ arg, Parses n (functionTy fuel arg) (FunctionTy arg) .functionTy) :
    Parses n (fullTy (fuel + 1)) (.ofYield FullTy.yield) .fullTy := by
  unfold fullTy
  refine .congr (ha.bind (by decide) hf) ?_ (by decide)
  rintro (_ | _) us <;> simp [FullTy.yield, FunctionTy]

theorem parses_functionTy (arg : AppliedTy)
    (hf : Parses (n - 1) (fullTy fuel) (.ofYield FullTy.yield) .fullTy) :
    Parses n (functionTy (fuel + 1) arg) (FunctionTy arg) .functionTy := by
  unfold functionTy
  refine .congr (.peek_or .arrow rfl (fun _ _ => by split <;> trivial) (by decide) (.tok_bind .arrow fun arrow => hf.map _)
    (.pure (.plain arg))) ?_ (by decide)
  rintro (_ | _) us <;> simp [FunctionTy]

/-- By induction on the budget: each parser calls the others with less of it, and gets back to
itself only after a token. -/
theorem parsesTypes (fuel : Nat) : ParsesTypes fuel := by
  induction fuel with
  | zero =>
    have none {n h : Nat} (hn : 8 * n + h ≤ 0 + 8) (hh : 0 < h) : n = 0 := by omega
    constructor
    case atomicTy => exact fun hn => none hn (by decide) ▸ .zero AtomicTy.hasShape
    case tupleTail => exact fun hn => none hn (by decide) ▸ .zero TupleTail.hasShape
    case appliedTy => exact fun hn => none hn (by decide) ▸ .zero AppliedTy.hasShape
    case applications =>
      exact fun hn fn => none hn (by decide) ▸ .zero (Applications.hasShape fn)
    case fullTy => exact fun hn => none hn (by decide) ▸ .zero FullTy.hasShape
    case functionTy => exact fun hn arg => none hn (by decide) ▸ .zero (FunctionTy.hasShape arg)
  | succ fuel ih =>
    constructor <;> intro n hn
    case atomicTy => exact parses_atomicTy (ih.fullTy (by omega)) (ih.tupleTail (by omega))
    case tupleTail => exact parses_tupleTail (ih.fullTy (by omega)) (ih.tupleTail (by omega))
    case appliedTy => exact parses_appliedTy (ih.atomicTy (by omega)) (ih.applications (by omega))
    case applications =>
      intro fn
      exact parses_applications fn (ih.atomicTy (by omega)) (ih.applications (by omega))
    case fullTy => exact parses_fullTy (ih.appliedTy (by omega)) (ih.functionTy (by omega))
    case functionTy =>
      intro arg
      exact parses_functionTy arg (ih.fullTy (by omega))

theorem budgeted_atomicTy :
    Parses n (Parser.budgeted atomicTy) (.ofYield AtomicTy.yield) .atomicTy :=
  .budgeted fun _ => (parsesTypes _).atomicTy (by omega)

theorem budgeted_appliedTy :
    Parses n (Parser.budgeted appliedTy) (.ofYield AppliedTy.yield) .appliedTy :=
  .budgeted fun _ => (parsesTypes _).appliedTy (by omega)

theorem budgeted_fullTy : Parses n (Parser.budgeted fullTy) (.ofYield FullTy.yield) .fullTy :=
  .budgeted fun _ => (parsesTypes _).fullTy (by omega)

theorem budgeted_functionTy (arg : AppliedTy) :
    Parses n (Parser.budgeted (functionTy · arg)) (FunctionTy arg) .functionTy :=
  .budgeted fun _ => (parsesTypes _).functionTy (by omega) arg

def Shape.qualTy : Shape :=
  ⟨startsAtomicTy, false, fun k => startsAtomicTy k || k == .arrow || k == .fatArrow⟩

theorem parses_qualTy : Parses n qualTy (.ofYield QualTy.yield) .qualTy := by
  unfold qualTy
  refine .congr (budgeted_appliedTy.bind (by decide) fun t => .peek_or .fatArrow rfl (fun _ _ => by split <;> trivial) (by decide)
    (.tok_bind .fatArrow fun arrow => budgeted_fullTy.map _)
    ((budgeted_functionTy t).map _)) ?_ (by decide)
  rintro (⟨_ | _⟩ | _) us <;> simp [QualTy.yield, FullTy.yield, FunctionTy]

end TypeLens.Concrete
