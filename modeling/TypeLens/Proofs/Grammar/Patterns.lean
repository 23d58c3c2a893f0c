import TypeLens.Concrete.Pattern
import TypeLens.Proofs.Grammar.Prediction

/-!
The parsers of patterns read the grammar of patterns.
-/

namespace TypeLens.Concrete

instance : Inhabited AtomicPat := ⟨.var default⟩

instance : Inhabited AtomicPats := ⟨.nil⟩

instance : Inhabited AppliedPat := ⟨.atom default⟩

instance : Inhabited FullPat := ⟨.plain default⟩

theorem AtomicPat.exists_yield (p : AtomicPat) :
    ∃ t us, p.yield = t :: us ∧ startsAtomicPat t.kind = true := by
  cases p <;> simp [AtomicPat.yield, startsAtomicPat]

theorem AppliedPat.exists_yield (p : AppliedPat) :
    ∃ t us, p.yield = t :: us ∧ startsAtomicPat t.kind = true := by
  cases p with
  | atom p => simpa [AppliedPat.yield] using p.exists_yield
  | app c p rest => simp [AppliedPat.yield, startsAtomicPat]

theorem FullPat.exists_yield (p : FullPat) :
    ∃ t us, p.yield = t :: us ∧ startsAtomicPat t.kind = true := by
  cases p with
  | plain p => simpa [FullPat.yield] using p.exists_yield
  | infixed l op r =>
    obtain ⟨t, us, hl, ht⟩ := l.exists_yield
    exact ⟨t, us ++ op.token :: r.yield, by simp [FullPat.yield, hl], ht⟩

namespace Shape

def atomicPat : Shape := ⟨startsAtomicPat, false, fun _ => false⟩

def atomicPats : Shape := ⟨startsAtomicPat, true, startsAtomicPat⟩

def appliedPat : Shape := ⟨startsAtomicPat, false, startsAtomicPat⟩

def fullPat : Shape := ⟨startsAtomicPat, false, fun k => startsAtomicPat k || k == .operator⟩

end Shape

theorem AtomicPat.hasShape : (Lang.ofYield AtomicPat.yield).HasShape .atomicPat :=
  Lang.hasShape_ofYield default AtomicPat.exists_yield

theorem AtomicPats.hasShape : (Lang.ofYield AtomicPats.yield).HasShape .atomicPats where
  nonempty := ⟨.nil, [], rfl⟩
  first := by
    rintro (_ | ⟨p, rest⟩) t us h
    · cases h
    · obtain ⟨v, vs, hv, hk⟩ := p.exists_yield
      obtain ⟨rfl, -⟩ := by simpa [Lang.ofYield, AtomicPats.yield, hv] using h
      exact hk
  null _ _ := rfl

theorem AppliedPat.hasShape : (Lang.ofYield AppliedPat.yield).HasShape .appliedPat :=
  Lang.hasShape_ofYield default AppliedPat.exists_yield

theorem FullPat.hasShape : (Lang.ofYield FullPat.yield).HasShape .fullPat :=
  Lang.hasShape_ofYield default FullPat.exists_yield

/-- The budgets that suffice for fewer than `n` tokens. -/
structure ParsesPatterns (fuel : Nat) : Prop where
  atomicPat : ∀ {n}, 8 * n + 1 ≤ fuel + 8 →
    Parses n (atomicPat fuel) (.ofYield AtomicPat.yield) .atomicPat
  atomicPats : ∀ {n}, 8 * n + 2 ≤ fuel + 8 →
    Parses n (atomicPats fuel) (.ofYield AtomicPats.yield) .atomicPats
  appliedPat : ∀ {n}, 8 * n + 3 ≤ fuel + 8 →
    Parses n (appliedPat fuel) (.ofYield AppliedPat.yield) .appliedPat
  fullPat : ∀ {n}, 8 * n + 4 ≤ fuel + 8 →
    Parses n (fullPat fuel) (.ofYield FullPat.yield) .fullPat

variable {n fuel : Nat}

theorem parses_atomicPat (hf : Parses (n - 1) (fullPat fuel) (.ofYield FullPat.yield) .fullPat) :
    Parses n (atomicPat (fuel + 1)) (.ofYield AtomicPat.yield) .atomicPat := by
  unfold atomicPat
  refine .peek AtomicPat.hasShape fun k => ?_
  split
  case h_1 | h_2 | h_3 | h_4 | h_5 =>
    refine .of_kind (by decide) (.map (.tok _) _) AtomicPat.hasShape ?_
    rintro (_ | _ | _ | _ | _ | _ | _) us <;> simp [AtomicPat.yield]
  case h_6 =>
    refine .of_kind (by decide) (.tok_bind _ fun l => .map (.tok _) _) AtomicPat.hasShape ?_
    rintro (_ | _ | _ | _ | _ | _ | _) us <;> simp [AtomicPat.yield]
  case h_7 =>
    refine .of_kind (by decide) (.tok_bind _ fun l => hf.bind (by decide) fun p => .map (.tok _) _) AtomicPat.hasShape ?_
    rintro (_ | _ | _ | _ | _ | _ | _) us <;> simp [AtomicPat.yield]
  case h_8 =>
    refine .fail rfl AtomicPat.hasShape ?_
    rintro j rfl
    cases j <;> simp_all [Shape.atomicPat, startsAtomicPat]

theorem parses_atomicPats
    (hp : Parses n (atomicPat fuel) (.ofYield AtomicPat.yield) .atomicPat)
    (hs : Parses (n - 1) (atomicPats fuel) (.ofYield AtomicPats.yield) .atomicPats) :
    Parses n (atomicPats (fuel + 1)) (.ofYield AtomicPats.yield) .atomicPats := by
  unfold atomicPats
  refine .congr (.peek_if startsAtomicPat (by decide)
    (hp.bind_shorter (by decide) fun p => hs.map _) (.pure .nil) fun _ => rfl) ?_ (by decide)
  rintro (_ | _) us <;> simp [AtomicPats.yield]

/-- A constructor alone is atomic. -/
def appliedTo (c : Tok .conid) : AtomicPats → AppliedPat
  | .nil => .atom (.con c)
  | .cons p rest => .app c p rest

theorem yield_appliedTo (c : Tok .conid) (ps : AtomicPats) :
    (appliedTo c ps).yield = c.token :: ps.yield := by
  cases ps <;> simp [appliedTo, AppliedPat.yield, AtomicPat.yield, AtomicPats.yield]

/-- Patterns that begin with a constructor, and the others. -/
theorem AppliedPat.eq_appliedTo_or (p : AppliedPat) :
    (∃ c ps, p = appliedTo c ps) ∨
      ∃ a : AtomicPat, p = .atom a ∧ a.yield.head?.map (·.kind) ≠ some .conid := by
  cases p with
  | app c p rest => exact .inl ⟨c, .cons p rest, rfl⟩
  | atom a =>
    cases a
    case con c => exact .inl ⟨c, .nil, rfl⟩
    all_goals exact .inr ⟨_, rfl, by simp [AtomicPat.yield]⟩

theorem parses_appliedPat
    (hp : Parses n (atomicPat fuel) (.ofYield AtomicPat.yield) .atomicPat)
    (hs : Parses (n - 1) (atomicPats fuel) (.ofYield AtomicPats.yield) .atomicPats) :
    Parses n (appliedPat (fuel + 1)) (.ofYield AppliedPat.yield) .appliedPat := by
  unfold appliedPat
  refine .peek AppliedPat.hasShape fun k => ?_
  split
  case h_1 =>
    have applied (c : Tok .conid) (ps : AtomicPats) :
        Parses (n - 1) (match ps with
          | .nil => Parser.pure (AppliedPat.atom (.con c))
          | .cons p rest => Parser.pure (.app c p rest)) (.single (appliedTo c ps)) .empty := by
      cases ps <;> exact .pure _
    refine .of_kind (by decide) (.tok_bind _ fun c => hs.bind (by decide) (applied c))
      AppliedPat.hasShape ?_
    intro p us
    simp only [Lang.bind_iff, Lang.ofYield_iff, Lang.single_iff]
    constructor
    · rintro ⟨c, _, rfl, _, ⟨ps, _, rfl, _, ⟨rfl, rfl⟩, rfl⟩, rfl⟩
      simp [yield_appliedTo]
    · rintro ⟨rfl, hk⟩
      rcases p.eq_appliedTo_or with ⟨c, ps, rfl⟩ | ⟨a, rfl, ha⟩
      · exact ⟨c, _, rfl, _, ⟨ps, _, rfl, _, ⟨rfl, rfl⟩, rfl⟩, by simp [yield_appliedTo]⟩
      · exact absurd (by simpa [AppliedPat.yield] using hk) ha
  case h_2 hk =>
    refine .of_others (by decide) (hp.map _) AppliedPat.hasShape hk ?_ ?_
    · rintro p us ⟨a, _, _, rfl, rfl, rfl, rfl⟩
      simp [Lang.ofYield, AppliedPat.yield]
    · rintro (a | _) u us hu h <;> simp [AppliedPat.yield] at h
      · exact ⟨a, u :: us, [], by simp, h.symm, rfl, rfl⟩
      · grind [Tok.kind_token]

theorem parses_fullPat (hp : Parses n (appliedPat fuel) (.ofYield AppliedPat.yield) .appliedPat)
    (hf : Parses (n - 1) (fullPat fuel) (.ofYield FullPat.yield) .fullPat) :
    Parses n (fullPat (fuel + 1)) (.ofYield FullPat.yield) .fullPat := by
  unfold fullPat
  refine .congr (hp.bind (by decide) fun p => .peek_or .operator rfl (fun _ _ => by split <;> trivial) (by decide) (.tok_bind .operator fun op => hf.map _)
    (.pure (.plain p))) ?_ (by decide)
  rintro (_ | _) us <;> simp [FullPat.yield]

/-- By induction on the budget: each parser calls the others with less of it, and gets back to
itself only after a token. -/
theorem parsesPatterns (fuel : Nat) : ParsesPatterns fuel := by
  induction fuel with
  | zero =>
    have none {n h : Nat} (hn : 8 * n + h ≤ 0 + 8) (hh : 0 < h) : n = 0 := by omega
    constructor <;> intro n hn <;> obtain rfl := none hn (by decide)
    case atomicPat => exact .zero AtomicPat.hasShape
    case atomicPats => exact .zero AtomicPats.hasShape
    case appliedPat => exact .zero AppliedPat.hasShape
    case fullPat => exact .zero FullPat.hasShape
  | succ fuel ih =>
    constructor <;> intro n hn
    case atomicPat => exact parses_atomicPat (ih.fullPat (by omega))
    case atomicPats => exact parses_atomicPats (ih.atomicPat (by omega)) (ih.atomicPats (by omega))
    case appliedPat => exact parses_appliedPat (ih.atomicPat (by omega)) (ih.atomicPats (by omega))
    case fullPat => exact parses_fullPat (ih.appliedPat (by omega)) (ih.fullPat (by omega))

theorem budgeted_atomicPat :
    Parses n (Parser.budgeted atomicPat) (.ofYield AtomicPat.yield) .atomicPat :=
  .budgeted fun _ => (parsesPatterns _).atomicPat (by omega)

theorem budgeted_atomicPats :
    Parses n (Parser.budgeted atomicPats) (.ofYield AtomicPats.yield) .atomicPats :=
  .budgeted fun _ => (parsesPatterns _).atomicPats (by omega)

theorem budgeted_fullPat :
    Parses n (Parser.budgeted fullPat) (.ofYield FullPat.yield) .fullPat :=
  .budgeted fun _ => (parsesPatterns _).fullPat (by omega)

end TypeLens.Concrete
