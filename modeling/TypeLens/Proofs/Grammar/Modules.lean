import TypeLens.Concrete.Module
import TypeLens.Proofs.Grammar.Expressions
import TypeLens.Proofs.Grammar.Types

/-!
The parsers of declarations and modules read the grammar of modules.
-/

namespace TypeLens.Concrete

instance : Inhabited QualTy := ⟨.plain default⟩

instance : Inhabited Signature := ⟨⟨⟨default, []⟩, default, default⟩⟩

instance : Inhabited Constructor := ⟨⟨default, []⟩⟩

instance : Inhabited Decl := ⟨.equation default⟩

instance : Inhabited TopDecl := ⟨.decl default⟩

/-- A signature whose first name is `b`, without that name. -/
@[mk_iff]
inductive SignatureFrom (b : Binder) : Signature → List Token → Prop
  | mk (more : List (Tok .comma × Binder)) (colons : Tok .doubleColon) (ty : QualTy) :
    SignatureFrom b ⟨⟨b, more⟩, colons, ty⟩
      (more.flatMap (fun i => i.1.token :: i.2.yield) ++ colons.token :: ty.yield)

/-- The kinds of token that can go on with a declaration. -/
def moreDecl (k : Terminal) : Bool :=
  moreExpr k || startsAtomicTy k || k == .arrow || k == .fatArrow || k == .comma || k == .bar ||
    k == .equals || k == .kwWhere

/-- The kinds of token that begin a declaration. -/
def startsDecl (k : Terminal) : Bool :=
  startsLetBind k || k == .kwData || k == .kwPrimitive || k == .kwInfixl || k == .kwInfixr ||
    k == .kwInfix || k == .kwClass || k == .kwInstance

namespace Shape

def binder : Shape := ⟨fun k => k == .varid || k == .lparen, false, fun _ => false⟩

def signatureFrom : Shape := ⟨fun k => k == .comma || k == .doubleColon, false, qualTy.more⟩

def signature : Shape := ⟨binder.first, false, qualTy.more⟩

def constructor : Shape := ⟨(· == .conid), false, startsAtomicTy⟩

def block : Shape := ⟨(· == .kwWhere), true, (· == .kwWhere)⟩

def namedDecl : Shape :=
  ⟨fun k => k == .comma || k == .doubleColon || startsAtomicPat k || k == .equals, false,
    fun k => moreExpr k || qualTy.more k⟩

def methodEquation : Shape := ⟨binder.first, false, moreExpr⟩

def fixityDecl : Shape := ⟨(· == .int), false, (· == .comma)⟩

def decl : Shape := ⟨startsDecl, false, moreDecl⟩

def topDecl : Shape :=
  ⟨fun k => startsDecl k || k == .kwModule || k == .kwImport, false, moreDecl⟩

end Shape

variable {n : Nat}

theorem parses_binder : Parses n binder (.ofYield Binder.yield) .binder := by
  unfold binder
  refine .congr (.peek_or .lparen rfl (fun _ _ => by split <;> trivial) (by decide)
    (.tok_bind .lparen fun l => .tok_bind .operator fun n => .map (.tok .rparen) _)
    (.map (.tok .varid) _)) ?_ (by decide)
  rintro (_ | _) us <;> simp [Binder.yield]

theorem parses_signatureFrom (b : Binder) :
    Parses n (signatureFrom b) (SignatureFrom b) .signatureFrom := by
  unfold signatureFrom
  refine .congr (.bind (.separated (by decide) fun _ => parses_binder) (by decide) fun more =>
    .tok_bind .doubleColon fun colons => parses_qualTy.map _) ?_ (by decide)
  rintro ⟨⟨b', more⟩, colons, ty⟩ us
  simp [signatureFrom_iff]

theorem parses_signature : Parses n signature (.ofYield Signature.yield) .signature := by
  unfold signature
  refine .congr (parses_binder.bind (by decide) parses_signatureFrom) ?_ (by decide)
  rintro ⟨⟨b, more⟩, colons, ty⟩ us
  simp [signatureFrom_iff, Signature.yield, SepBy.yield]

theorem parses_constructor : Parses n constructor (.ofYield Constructor.yield) .constructor := by
  unfold constructor
  refine .congr (.tok_bind .conid fun name => .map (.many (by decide) fun _ => budgeted_atomicTy) _) ?_
    (by decide)
  rintro ⟨name, args⟩ us
  simp [Constructor.yield]

/-- A signature or an equation for `b`, without that name. -/
@[mk_iff]
inductive NamedDecl (b : Binder) : Decl → List Token → Prop
  | signature {s : Signature} {us : List Token} (h : SignatureFrom b s us) :
    NamedDecl b (.signature s) us
  | equation {e : Equation} {us : List Token} (h : EquationOf b e us) :
    NamedDecl b (.equation e) us

theorem parses_namedDecl (b : Binder) : Parses n (namedDecl b) (NamedDecl b) .namedDecl := by
  unfold namedDecl
  refine .congr (.peek_if (fun k => k == .comma || k == .doubleColon) (by decide)
    ((parses_signatureFrom b).map .signature) ((budgeted_equation b).map .equation) ?_) ?_
    (by decide)
  · rintro (_ | k)
    · rfl
    · cases k <;> rfl
  · intro d us
    simp [namedDecl_iff]

theorem parses_methodEquation :
    Parses n methodEquation (.ofYield Equation.yield) .methodEquation := by
  unfold methodEquation
  refine .congr (parses_binder.bind (by decide) fun b => budgeted_equation b) ?_ (by decide)
  rintro ⟨b, ps, eq, rhs⟩ us
  simp [equationOf_iff, Equation.yield]

/-- Operators that get a fixity, after its keyword. -/
@[mk_iff]
inductive FixityOf (kw : FixityKeyword) : Decl → List Token → Prop
  | mk (p : Tok .int) (ops : SepBy .comma (Tok .operator)) :
    FixityOf kw (.fixity kw p ops) (p.token :: ops.yield fun t => [t.token])

theorem parses_fixityDecl (kw : FixityKeyword) :
    Parses n (fixityDecl kw) (FixityOf kw) .fixityDecl := by
  unfold fixityDecl
  refine .congr (.tok_bind .int fun p => .map (.sepBy (by decide) fun _ => .tok .operator) _) ?_ (by decide)
  intro d us
  simp [fixityOf_iff]

/-- The items of a block. -/
theorem parses_block {α : Type} {p : Parser α} {f : α → List Token} {s : Shape}
    (h : s.first .blockClose = false ∧ s.more .itemSep = false ∧ s.more .blockClose = false ∧
      s.null = false)
    (hp : ∀ m, Parses m p (.ofYield f) s) :
    Parses n (block p) (.ofYield fun b : Option (Block α) => b.elim [] (·.yield f)) .block := by
  unfold block
  obtain ⟨hf, hm, hc, hn⟩ := h
  have apart : (Shape.sepBy .itemSep s).Apart (.tok .blockClose) :=
    Shape.apart_of_more (by simp [Shape.sepBy, hc]) fun _ => rfl
  refine .congr (.peek_or .kwWhere rfl (fun _ _ => by split <;> trivial) ?_
    (.tok_bind .kwWhere fun kw => .tok_bind .blockOpen fun opening =>
      .peek_or .blockClose rfl (fun _ _ => by split <;> trivial) ⟨?_, ?_, rfl⟩
        (.map (.tok .blockClose) _)
        (.bind (.sepBy ⟨hm, hn⟩ hp) apart fun items => .map (.tok .blockClose) _))
    (.pure none)) ?_ ?_
  · simp [Shape.Splits, Shape.seq, Shape.tok, Shape.empty]
  · simp [Shape.tok]
  · intro k hk
    refine beq_eq_false_iff_ne.mpr ?_
    rintro rfl
    simp [Shape.seq, Shape.sepBy, hf] at hk
  · rintro (_ | ⟨kw, opening, _ | items, closing⟩) us <;> simp [Block.yield]
  · constructor <;> simp [Shape.or, Shape.seq, Shape.tok, Shape.block, Shape.empty, Shape.sepBy]

theorem Decl.exists_yield (d : Decl) : ∃ t us, d.yield = t :: us ∧ startsDecl t.kind = true := by
  rcases d with _ | ⟨⟨_ | _, more⟩, colons, ty⟩ | _ | ⟨_ | _ | _, p, ops⟩ | _ | _ |
    ⟨_ | _, ps, eq, rhs⟩ | ⟨_ | _, eq, rhs⟩ <;>
    simp [Decl.yield, Signature.yield, SepBy.yield, Binder.yield, FixityKeyword.yield,
      Equation.yield, PatEquation.yield, PatLhs.yield, startsDecl, startsLetBind]

theorem Decl.hasShape : (Lang.ofYield Decl.yield).HasShape .decl :=
  Lang.hasShape_ofYield default Decl.exists_yield

theorem parses_decl : Parses n decl (.ofYield Decl.yield) .decl := by
  unfold decl
  refine .peek Decl.hasShape fun k => ?_
  split
  case h_1 =>
    refine .of_kind (by decide) (.tok_bind _ fun kw => .tok_bind .conid fun name =>
      .bind (.many (by decide) fun _ => .tok .varid) (by decide) fun tyvars =>
        .peek_or .equals rfl (fun _ _ => by split <;> trivial) (by decide)
          (.tok_bind .equals fun eq => .map (.sepBy (by decide) fun _ => parses_constructor) _)
          (.pure (.data kw name tyvars none))) Decl.hasShape ?_
    rintro (⟨kw, name, vs, _ | ⟨eq, cons⟩⟩ | ⟨⟨_ | _, more⟩, colons, ty⟩ | _ | ⟨_ | _ | _, p, ops⟩ | _ | _ |
        ⟨_ | _, ps, eq, rhs⟩ | ⟨_ | _, eq, rhs⟩) us <;>
      simp [Decl.yield, Signature.yield, SepBy.yield, Binder.yield, FixityKeyword.yield,
        Equation.yield, PatEquation.yield, PatLhs.yield, List.map_eq_flatMap]
  case h_2 =>
    refine .of_kind (by decide) (.tok_bind _ fun kw => parses_signature.map _) Decl.hasShape ?_
    rintro (_ | ⟨⟨_ | _, more⟩, colons, ty⟩ | _ | ⟨_ | _ | _, p, ops⟩ | _ | _ |
        ⟨_ | _, ps, eq, rhs⟩ | ⟨_ | _, eq, rhs⟩) us <;>
      simp [Decl.yield, Signature.yield, SepBy.yield, Binder.yield, FixityKeyword.yield,
        Equation.yield, PatEquation.yield, PatLhs.yield]
  case h_3 | h_4 | h_5 =>
    refine .of_kind (by decide) (.tok_bind _ fun kw => parses_fixityDecl _) Decl.hasShape ?_
    rintro (_ | ⟨⟨_ | _, more⟩, colons, ty⟩ | _ | ⟨_ | _ | _, p, ops⟩ | _ | _ |
        ⟨_ | _, ps, eq, rhs⟩ | ⟨_ | _, eq, rhs⟩) us <;>
      simp [Decl.yield, Signature.yield, SepBy.yield, Binder.yield, FixityKeyword.yield,
        Equation.yield, PatEquation.yield, PatLhs.yield, fixityOf_iff]
  case h_6 =>
    refine .of_kind (by decide) (.tok_bind _ fun kw => .tok_bind .conid fun name => .tok_bind .varid fun tyvar =>
      .map (parses_block (by decide) fun _ => parses_signature) _) Decl.hasShape ?_
    rintro (_ | ⟨⟨_ | _, more⟩, colons, ty⟩ | _ | ⟨_ | _ | _, p, ops⟩ | _ | _ |
        ⟨_ | _, ps, eq, rhs⟩ | ⟨_ | _, eq, rhs⟩) us <;>
      simp [Decl.yield, Signature.yield, SepBy.yield, Binder.yield, FixityKeyword.yield,
        Equation.yield, PatEquation.yield, PatLhs.yield]
  case h_7 =>
    refine .of_kind (by decide) (.tok_bind _ fun kw => parses_qualTy.bind (by decide) fun head =>
      .map (parses_block (by decide) fun _ => parses_methodEquation) _) Decl.hasShape ?_
    rintro (_ | ⟨⟨_ | _, more⟩, colons, ty⟩ | _ | ⟨_ | _ | _, p, ops⟩ | _ | _ |
        ⟨_ | _, ps, eq, rhs⟩ | ⟨_ | _, eq, rhs⟩) us <;>
      simp [Decl.yield, Signature.yield, SepBy.yield, Binder.yield, FixityKeyword.yield,
        Equation.yield, PatEquation.yield, PatLhs.yield]
  case h_8 =>
    refine .of_kind (by decide) (.tok_bind _ fun n => parses_namedDecl _) Decl.hasShape ?_
    rintro (_ | ⟨⟨_ | _, more⟩, colons, ty⟩ | _ | ⟨_ | _ | _, p, ops⟩ | _ | _ |
        ⟨_ | _, ps, eq, rhs⟩ | ⟨_ | _, eq, rhs⟩) us <;>
      simp [Decl.yield, Signature.yield, SepBy.yield, Binder.yield, FixityKeyword.yield,
        Equation.yield, PatEquation.yield, PatLhs.yield, namedDecl_iff, signatureFrom_iff, equationOf_iff]
  case h_9 =>
    refine .of_kind (by decide) (.tok_bind _ fun c => budgeted_atomicPats.bind (by decide) fun args =>
      (budgeted_patEquation (.con c args)).map _) Decl.hasShape ?_
    rintro (_ | ⟨⟨_ | _, more⟩, colons, ty⟩ | _ | ⟨_ | _ | _, p, ops⟩ | _ | _ |
        ⟨_ | _, ps, eq, rhs⟩ | ⟨_ | _, eq, rhs⟩) us <;>
      simp [Decl.yield, Signature.yield, SepBy.yield, Binder.yield, FixityKeyword.yield,
        Equation.yield, PatEquation.yield, PatLhs.yield, patEquationOf_iff]
  case h_10 =>
    refine .of_kind (by decide) (.tok_bind _ fun l => .peek_or .operator rfl (fun _ _ => by split <;> trivial) (by decide)
      (.tok_bind .operator fun n => .tok_bind .rparen fun r => parses_namedDecl (.op l n r))
      (budgeted_fullPat.bind (by decide) fun p => .tok_bind .rparen fun r =>
        (budgeted_patEquation (.paren l p r)).map _)) Decl.hasShape ?_
    rintro (_ | ⟨⟨_ | _, more⟩, colons, ty⟩ | _ | ⟨_ | _ | _, p, ops⟩ | _ | _ |
        ⟨_ | _, ps, eq, rhs⟩ | ⟨_ | _, eq, rhs⟩) us <;>
      simp [Decl.yield, Signature.yield, SepBy.yield, Binder.yield, FixityKeyword.yield,
        Equation.yield, PatEquation.yield, PatLhs.yield, namedDecl_iff, signatureFrom_iff, equationOf_iff,
        patEquationOf_iff]
  case h_11 =>
    refine .fail rfl Decl.hasShape ?_
    rintro j rfl
    cases j <;> simp_all [Shape.decl, startsDecl, startsLetBind]

theorem TopDecl.exists_yield (d : TopDecl) : ∃ t us, d.yield = t :: us ∧
    (startsDecl t.kind || t.kind == .kwModule || t.kind == .kwImport) = true := by
  cases d with
  | header kw n => simp [TopDecl.yield]
  | importDecl kw n => simp [TopDecl.yield]
  | decl d =>
    obtain ⟨t, us, hd, ht⟩ := d.exists_yield
    exact ⟨t, us, by simp [TopDecl.yield, hd], by simp [ht]⟩

theorem TopDecl.hasShape : (Lang.ofYield TopDecl.yield).HasShape .topDecl :=
  Lang.hasShape_ofYield default TopDecl.exists_yield

theorem Decl.startsDecl_of_head {d : Decl} {t : Token} (h : d.yield.head? = some t) :
    startsDecl t.kind = true := by
  obtain ⟨u, us, hd, hu⟩ := d.exists_yield
  obtain rfl : u = t := by simpa [hd] using h
  exact hu

theorem parses_topDecl : Parses n topDecl (.ofYield TopDecl.yield) .topDecl := by
  unfold topDecl
  refine .peek TopDecl.hasShape fun k => ?_
  split
  case h_1 | h_2 =>
    refine .of_kind (by decide) (.tok_bind _ fun kw => .map (.tok .conid) _) TopDecl.hasShape ?_
    rintro (_ | _ | d) us <;> simp [TopDecl.yield]
    all_goals grind [Decl.startsDecl_of_head, startsDecl, startsLetBind]
  case h_3 hm hi =>
    refine .of_parses (parses_decl.map _) (by decide) ?_ ?_ ?_
    · rintro d us ⟨d, _, _, rfl, rfl, rfl, rfl⟩
      simp [Lang.ofYield, TopDecl.yield]
    · rintro (_ | _ | d) t us rfl h
      · obtain ⟨rfl, -⟩ := List.cons.inj h
        exact absurd rfl hm
      · obtain ⟨rfl, -⟩ := List.cons.inj h
        exact absurd rfl hi
      · exact ⟨d, t :: us, [], by simp, h, rfl, rfl⟩
    · intro d h
      obtain ⟨t, us, hd, -⟩ := d.exists_yield
      cases hd.symm.trans h

abbrev TopDecls : Lang (SepBy .itemSep TopDecl) := .ofYield (SepBy.yield TopDecl.yield)

theorem parses_topDecls :
    Parses n (Parser.sepBy .itemSep topDecl) TopDecls (.sepBy .itemSep .topDecl) :=
  .sepBy (by decide) fun _ => parses_topDecl

/-- The empty module is the front part of others. -/
theorem Module.viable_iff {us : List Token} :
    (Lang.ofYield Module.yield).Viable us ↔ TopDecls.Viable us := by
  constructor
  · rintro ⟨⟨_ | ds⟩, vs, h⟩
    · obtain ⟨rfl, -⟩ := List.append_eq_nil_iff.mp h.symm
      obtain ⟨ds, us, hd⟩ := (parses_topDecls (n := 0)).shape.nonempty
      exact ⟨ds, us, hd⟩
    · exact ⟨ds, vs, h⟩
  · rintro ⟨ds, vs, h⟩
    exact ⟨⟨some ds⟩, vs, h⟩

theorem stops_nil (more : Terminal → Bool) : Stops more [] := by
  simp [Stops]

/-- What is read is the tree of the tokens, and there is no other one. -/
theorem Module.parse_eq_ok_iff {ts : List Token} {m : Module} :
    Module.parse ts = .ok m ↔ m.yield = ts := by
  obtain ⟨decls⟩ := m
  cases ts with
  | nil =>
    cases decls with
    | none => simp [Module.parse, Module.yield]
    | some ds =>
      have : ds.yield TopDecl.yield ≠ [] := fun h => by
        have := (parses_topDecls (n := 0)).shape.null ds h
        cases this
      simpa [Module.parse, Module.yield]
  | cons t ts =>
    have read := parses_topDecls (n := (t :: ts).length + 1)
    constructor
    · intro h
      simp only [Module.parse] at h
      split at h
      · rename_i ds hr
        obtain ⟨us, he, hu, -⟩ := read.sound (Nat.lt_succ_self _) hr
        cases h
        rw [he, List.append_nil]
        exact hu
      all_goals cases h
    · intro h
      cases decls with
      | none => simp [Module.yield] at h
      | some ds =>
        have := read.complete (a := ds) (by simp) (show _ = t :: ts from h) (stops_nil _)
        simp only [List.append_nil] at this
        simp [Module.parse, this]

/-- A failure is at the first token that no module goes on with. -/
theorem Module.parse_eq_error {ts rest : List Token} (h : Module.parse ts = .error rest) :
    ∃ us, ts = us ++ rest ∧ (Lang.ofYield Module.yield).Viable us ∧
      (Lang.ofYield Module.yield).Halts us rest := by
  simp only [Lang.Halts, Module.viable_iff]
  cases ts with
  | nil => cases h
  | cons t ts =>
    have read := parses_topDecls (n := (t :: ts).length + 1)
    simp only [Module.parse] at h
    split at h
    · cases h
    · rename_i ds rest' _ hr
      obtain rfl := Except.error.inj h
      obtain ⟨us, he, hu, hh⟩ := read.sound (Nat.lt_succ_self _) hr
      exact ⟨us, he, ⟨ds, [], (List.append_nil us).symm ▸ hu⟩, hh⟩
    · rename_i rest' hr
      obtain rfl := Except.error.inj h
      exact read.fault (Nat.lt_succ_self _) hr

end TypeLens.Concrete
