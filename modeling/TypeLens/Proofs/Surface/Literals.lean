import TypeLens.Proofs.Grammar.Modules
import TypeLens.Proofs.Layout.Stream
import TypeLens.Proofs.Lex.Pieces
import TypeLens.Surface.Parse

/-!
Literals without a value. A tree whose literals all have one is built or misuses the grammar; where
building ends with a literal, that literal is a token of the tree.
-/

namespace TypeLens

open Concrete

namespace Surface

def fault? {ε α : Type} : Except ε α → Option ε
  | .ok _ => none
  | .error f => some f

theorem fault?_eq_some_iff {ε α : Type} {x : Except ε α} {f : ε} :
    fault? x = some f ↔ x = .error f := by
  cases x <;> simp [fault?]

/-- What is wrong with a token taken by itself. -/
def literalFault? (t : Token) : Option Fault :=
  match t.kind with
  | .int => fault? (buildInt t.text)
  | .string => fault? (buildString t.text)
  | _ => none

def literalFaults (ts : List Token) : List Fault := ts.filterMap literalFault?

section Faults

variable {ts us : List Token}

@[simp]
theorem literalFaults_nil : literalFaults [] = [] := rfl

@[simp]
theorem literalFaults_append : literalFaults (ts ++ us) = literalFaults ts ++ literalFaults us :=
  List.filterMap_append

/-- Only two kinds of token are literals. -/
@[simp]
theorem literalFaults_token {k : Terminal} (t : Tok k) (hi : k ≠ .int) (hs : k ≠ .string) :
    literalFaults (t.token :: ts) = literalFaults ts := by
  refine List.filterMap_cons_none ?_
  cases k <;> first | rfl | contradiction

end Faults

/-- Building has dealt with literals that have the faults `F`. -/
def Reads {α : Type} (F : List Fault) : Build α → Prop
  | .ok _ => F = []
  | .error (.misuse _ _) => True
  | .error f => f ∈ F

namespace Reads

variable {α β : Type} {F G : List Fault} {x : Build α}

protected theorem pure (a : α) : Reads [] (pure a : Build α) := rfl

theorem misuse (m : Misuse) (loc : Span) : Reads F (misuse m loc : Build α) := trivial

theorem bind {k : α → Build β} (hx : Reads F x) (hk : ∀ a, Reads G (k a)) :
    Reads (F ++ G) (x >>= k) := by
  match x, hx with
  | .ok a, hx =>
    obtain rfl : F = [] := hx
    exact hk a
  | .error (.misuse _ _), _ => trivial
  | .error .literalTooLong, hx => exact List.mem_append_left G hx
  | .error (.badString _), hx => exact List.mem_append_left G hx

theorem congr (hx : Reads F x) (h : G = F) : Reads G x := h ▸ hx

/-- The order in which faults are listed does not matter. -/
theorem perm (hx : Reads F x) (h : F.Perm G) : Reads G x := by
  match x, hx with
  | .ok _, hx =>
    obtain rfl : F = [] := hx
    exact h.nil_eq.symm
  | .error (.misuse _ _), _ => trivial
  | .error .literalTooLong, hx => exact h.subset hx
  | .error (.badString _), hx => exact h.subset hx

/-- What is built last is put together without failing. -/
theorem map (hx : Reads F x) (g : α → β) : Reads F (x >>= fun a => pure (g a)) := by
  have := hx.bind fun a => Reads.pure (g a)
  rwa [List.append_nil] at this

theorem mapM {f : α → Build β} {faults : α → List Fault} (hf : ∀ a, Reads (faults a) (f a))
    (as : List α) : Reads (as.flatMap faults) (as.mapM f) := by
  induction as with
  | nil => exact .pure []
  | cons a as ih =>
    rw [List.mapM_cons, List.flatMap_cons]
    exact (hf a).bind fun b => ih.map (b :: ·)

/-- Work without literals. -/
theorem none_mapM {f : α → Build β} (hf : ∀ a, Reads [] (f a)) (as : List α) :
    Reads [] (as.mapM f) := by
  exact (mapM hf as).congr (by simp)

end Reads

theorem reads_fault? {α : Type} (x : Build α) : Reads (fault? x).toList x := by
  match x with
  | .ok _ => rfl
  | .error (.misuse _ _) => trivial
  | .error .literalTooLong | .error (.badString _) => exact List.mem_singleton_self _

theorem literalFaults_singleton (t : Token) : literalFaults [t] = (literalFault? t).toList := by
  rw [literalFaults, List.filterMap_cons]
  cases literalFault? t <;> rfl

theorem reads_buildInt (t : Tok .int) : Reads (literalFaults [t.token]) (buildInt t.text) :=
  (reads_fault? _).congr (literalFaults_singleton _)

theorem reads_buildString (t : Tok .string) :
    Reads (literalFaults [t.token]) (buildString t.text) :=
  (reads_fault? _).congr (literalFaults_singleton _)

-- Types

mutual

@[simp]
theorem literalFaults_atomicTy : ∀ t : AtomicTy, literalFaults t.yield = []
  | .con _ | .var _ => by simp [AtomicTy.yield]
  | .list _ t _ => by simp [AtomicTy.yield, literalFaults_fullTy t]
  | .paren _ t _ => by simp [AtomicTy.yield, literalFaults_fullTy t]
  | .tuple _ t _ rest => by
    simp [AtomicTy.yield, literalFaults_fullTy t, literalFaults_tupleTail rest]

@[simp]
theorem literalFaults_tupleTail : ∀ t : TupleTail, literalFaults t.yield = []
  | .last t _ => by simp [TupleTail.yield, literalFaults_fullTy t]
  | .more t _ rest => by
    simp [TupleTail.yield, literalFaults_fullTy t, literalFaults_tupleTail rest]

@[simp]
theorem literalFaults_appliedTy : ∀ t : AppliedTy, literalFaults t.yield = []
  | .atom t => literalFaults_atomicTy t
  | .app f a => by simp [AppliedTy.yield, literalFaults_appliedTy f, literalFaults_atomicTy a]

@[simp]
theorem literalFaults_fullTy : ∀ t : FullTy, literalFaults t.yield = []
  | .plain t => literalFaults_appliedTy t
  | .fn a _ r => by simp [FullTy.yield, literalFaults_appliedTy a, literalFaults_fullTy r]

end

@[simp]
theorem literalFaults_qualTy (q : QualTy) : literalFaults q.yield = [] := by
  cases q <;> simp [QualTy.yield]

variable (file : Option String)

mutual

theorem reads_buildAtomicTy : ∀ t : AtomicTy, Reads [] (buildAtomicTy file t)
  | .con _ | .var _ => rfl
  | .list _ t _ => (reads_buildFullTy t).map _
  | .paren _ t _ => reads_buildFullTy t
  | .tuple .. => trivial

theorem reads_buildAppliedTy : ∀ t : AppliedTy, Reads [] (buildAppliedTy file t)
  | .atom t => reads_buildAtomicTy t
  | .app f a => (reads_buildAppliedTy f).bind fun
    | .con .. => (reads_buildAtomicTy a).map _
    | .var .. | .fn .. => trivial

theorem reads_buildFullTy : ∀ t : FullTy, Reads [] (buildFullTy file t)
  | .plain t => reads_buildAppliedTy t
  | .fn a _ r => (reads_buildAppliedTy a).bind fun _ => (reads_buildFullTy r).map _

end

theorem reads_buildPred (t : FullTy) : Reads [] (buildPred file t) := by
  refine (reads_buildFullTy file t).bind fun e => ?_
  split
  · exact .pure _
  · exact .misuse _ _

theorem reads_buildQualTy (q : QualTy) : Reads [] (buildQualTy file q) := by
  cases q with
  | plain t => exact (reads_buildFullTy file t).map _
  | qualified c _ t =>
    exact (Reads.none_mapM (reads_buildPred file) _).bind fun _ => (reads_buildFullTy file t).map _

-- Patterns

mutual

theorem reads_buildAtomicPat : ∀ p : AtomicPat,
    Reads (literalFaults p.yield) (buildAtomicPat file p)
  | .var _ | .wild _ | .con _ | .nil _ _ => by simp [AtomicPat.yield, buildAtomicPat, Reads]
  | .int t => (reads_buildInt t).map _
  | .string t => (reads_buildString t).map _
  | .paren _ p _ => ((reads_buildFullPat p).map _).congr (by simp [AtomicPat.yield])

theorem reads_buildAtomicPats : ∀ ps : AtomicPats,
    Reads (literalFaults ps.yield) (buildAtomicPats file ps)
  | .nil => rfl
  | .cons p ps =>
    ((reads_buildAtomicPat p).bind fun _ => (reads_buildAtomicPats ps).map _).congr
      (by simp [AtomicPats.yield])

theorem reads_buildAppliedPat : ∀ p : AppliedPat,
    Reads (literalFaults p.yield) (buildAppliedPat file p)
  | .atom p => reads_buildAtomicPat p
  | .app _ p ps =>
    ((reads_buildAtomicPat p).bind fun _ => (reads_buildAtomicPats ps).map _).congr
      (by simp [AppliedPat.yield])

theorem reads_buildFullPat : ∀ p : FullPat, Reads (literalFaults p.yield) (buildFullPat file p)
  | .plain p => reads_buildAppliedPat p
  | .infixed l op r => by
    rw [buildFullPat]
    split
    · exact ((reads_buildAppliedPat l).bind fun _ => (reads_buildFullPat r).map _).congr
        (by simp [FullPat.yield])
    · exact .misuse _ _

end

theorem reads_buildPatLhs (l : PatLhs) : Reads (literalFaults l.yield) (buildPatLhs file l) := by
  cases l with
  | con _ args =>
    exact ((reads_buildAtomicPats file args).map _).congr (by simp [PatLhs.yield])
  | paren _ p _ => exact ((reads_buildFullPat file p).map _).congr (by simp [PatLhs.yield])

@[simp]
theorem literalFaults_binder (b : Binder) : literalFaults b.yield = [] := by
  cases b <;> simp [Binder.yield]

-- Expressions

mutual

theorem reads_buildAtomicExpr : ∀ e : AtomicExpr,
    Reads (literalFaults e.yield) (buildAtomicExpr file e)
  | .var _ | .con _ | .op .. | .nil .. => by simp [AtomicExpr.yield, buildAtomicExpr, Reads]
  | .int t => (reads_buildInt t).map _
  | .string t => (reads_buildString t).map _
  | .paren _ e _ => ((reads_buildFullExpr e).map _).congr (by simp [AtomicExpr.yield])
  | .list _ e rest =>
    ((reads_buildFullExpr e).bind fun _ => (reads_buildListTail rest).map _).congr
      (by simp [AtomicExpr.yield])

theorem reads_buildListTail : ∀ l : ListTail, Reads (literalFaults l.yield) (buildListTail file l)
  | .close _ => by simp [ListTail.yield, buildListTail, Reads]
  | .more _ e rest =>
    ((reads_buildFullExpr e).bind fun _ => (reads_buildListTail rest).map _).congr
      (by simp [ListTail.yield])

theorem reads_buildAppliedExpr : ∀ e : AppliedExpr,
    Reads (literalFaults e.yield) (buildAppliedExpr file e)
  | .atom e => reads_buildAtomicExpr e
  | .app f a =>
    ((reads_buildAppliedExpr f).bind fun _ => (reads_buildAtomicExpr a).map _).congr
      (by simp [AppliedExpr.yield])

theorem reads_buildOperands : ∀ e : Operation,
    Reads (literalFaults e.yield) (buildOperands file e)
  | .last e => (reads_buildAppliedExpr e).map _
  | .more e _ rest =>
    ((reads_buildAppliedExpr e).bind fun _ => (reads_buildOperands rest).map _).congr
      (by simp [Operation.yield])
  | .keyword e _ last =>
    ((reads_buildAppliedExpr e).bind fun _ => (reads_buildKeywordExpr last).map _).congr
      (by simp [Operation.yield])

theorem reads_buildKeywordExpr : ∀ e : KeywordExpr,
    Reads (literalFaults e.yield) (buildKeywordExpr file e)
  | .lambda _ p ps _ body =>
    ((reads_buildAtomicPat file p).bind fun _ => (reads_buildAtomicPats file ps).bind fun _ =>
      (reads_buildFullExpr body).map _).congr (by simp [KeywordExpr.yield])
  | .letIn _ binds _ body =>
    ((reads_buildLetBinds binds).bind fun _ => (reads_buildFullExpr body).map _).congr
      (by simp [KeywordExpr.yield])
  | .ifThenElse _ c _ y _ n =>
    ((reads_buildFullExpr c).bind fun _ => (reads_buildFullExpr y).bind fun _ =>
      (reads_buildFullExpr n).map _).congr (by simp [KeywordExpr.yield])
  | .caseOf _ s _ _ alt rest => by
    -- the alternatives are built before the scrutinee
    refine ((reads_buildCaseAlt alt).bind fun _ => (reads_buildAltTail rest).bind fun _ =>
      (reads_buildFullExpr s).map _).perm ?_
    have hf : (literalFaults alt.yield ++ (literalFaults rest.yield ++ literalFaults s.yield)).Perm
        (literalFaults s.yield ++ (literalFaults alt.yield ++ literalFaults rest.yield)) := by
      rw [← List.append_assoc]
      exact List.perm_append_comm
    exact hf.trans (.of_eq (by simp [KeywordExpr.yield]))

theorem reads_buildFullExpr : ∀ e : FullExpr,
    Reads (literalFaults e.yield) (buildFullExpr file e)
  | .keyword e => reads_buildKeywordExpr e
  | .operation e => (reads_buildOperands e).map _

theorem reads_buildCaseAlt : ∀ a : CaseAlt, Reads (literalFaults a.yield) (buildCaseAlt file a)
  | .mk p _ e =>
    ((reads_buildFullPat file p).bind fun _ => (reads_buildFullExpr e).map _).congr
      (by simp [CaseAlt.yield])

theorem reads_buildAltTail : ∀ l : AltTail, Reads (literalFaults l.yield) (buildAltTail file l)
  | .close _ | .trailing .. => by simp [AltTail.yield, buildAltTail, Reads]
  | .more _ alt rest =>
    ((reads_buildCaseAlt alt).bind fun _ => (reads_buildAltTail rest).map _).congr
      (by simp [AltTail.yield])

theorem reads_buildLetBinds : ∀ b : LetBinds, Reads (literalFaults b.yield) (buildLetBinds file b)
  | .single b => (reads_buildLetBind b).map _
  | .block _ b rest =>
    ((reads_buildLetBind b).bind fun _ => (reads_buildLetTail rest).map _).congr
      (by simp [LetBinds.yield])

theorem reads_buildLetTail : ∀ l : LetTail, Reads (literalFaults l.yield) (buildLetTail file l)
  | .close _ | .trailing .. => by simp [LetTail.yield, buildLetTail, Reads]
  | .more _ b rest =>
    ((reads_buildLetBind b).bind fun _ => (reads_buildLetTail rest).map _).congr
      (by simp [LetTail.yield])

theorem reads_buildLetBind : ∀ b : LetBind, Reads (literalFaults b.yield) (buildLetBind file b)
  | .equation e => (reads_buildEquation e).map _
  | .pattern e => (reads_buildPatEquation e).map _

theorem reads_buildEquation : ∀ e : Equation, Reads (literalFaults e.yield) (buildEquation file e)
  | .mk _ ps _ e =>
    ((reads_buildAtomicPats file ps).bind fun _ => (reads_buildFullExpr e).map _).congr
      (by simp [Equation.yield])

theorem reads_buildPatEquation : ∀ e : PatEquation,
    Reads (literalFaults e.yield) (buildPatEquation file e)
  | .mk lhs _ e =>
    ((reads_buildPatLhs file lhs).bind fun _ => (reads_buildFullExpr e).map _).congr
      (by simp [PatEquation.yield])

end

-- Declarations

@[simp]
theorem literalFaults_sepBy {sep : Terminal} {α : Type} {f : α → List Token} (s : SepBy sep α)
    (hi : sep ≠ .int) (hs : sep ≠ .string) :
    literalFaults (s.yield f) = s.items.flatMap fun a => literalFaults (f a) := by
  have more : ∀ xs : List (Tok sep × α), literalFaults (xs.flatMap fun p => p.1.token :: f p.2) =
      (xs.map Prod.snd).flatMap fun a => literalFaults (f a) := by
    intro xs
    induction xs with
    | nil => rfl
    | cons p xs ih => simp [hi, hs, ih]
  simp [SepBy.yield, SepBy.items, more]

@[simp]
theorem literalFaults_signature (s : Signature) : literalFaults s.yield = [] := by
  simp [Signature.yield]

@[simp]
theorem literalFaults_constructor (c : Constructor) : literalFaults c.yield = [] := by
  have more : literalFaults (c.args.flatMap AtomicTy.yield) = [] := by
    induction c.args <;> simp_all
  simp [Constructor.yield, more]

@[simp]
theorem literalFaults_block {α : Type} {f : α → List Token} (b : Block α) :
    literalFaults (b.yield f) = b.toList.flatMap fun a => literalFaults (f a) := by
  cases h : b.items <;> simp [Block.yield, Block.toList, h]

@[simp]
theorem literalFaults_map_token {k : Terminal} (ts : List (Tok k)) (hi : k ≠ .int)
    (hs : k ≠ .string) : literalFaults (ts.map Tok.token) = [] := by
  induction ts <;> simp_all

theorem reads_buildSignature (s : Signature) : Reads [] (buildSignature file s) :=
  (reads_buildQualTy file s.ty).map _

theorem reads_buildConstructor (c : Constructor) : Reads [] (buildConstructor file c) :=
  (Reads.none_mapM (reads_buildAtomicTy file) c.args).map _

theorem reads_buildDecl (d : Concrete.Decl) : Reads (literalFaults d.yield) (buildDecl file d) := by
  cases d with
  | data _ n vs cons =>
    refine ((Reads.none_mapM (reads_buildConstructor file) _).map _).congr ?_
    cases cons <;> simp [Concrete.Decl.yield]
  | signature s => exact ((reads_buildSignature file s).map _).congr (by simp [Concrete.Decl.yield])
  | primitive _ s =>
    exact ((reads_buildSignature file s).map _).congr (by simp [Concrete.Decl.yield])
  | fixity kw p ops =>
    refine ((reads_buildInt p).bind (G := []) fun n => ?_).congr ?_
    · split
      · exact .misuse _ _
      · exact .pure _
    · have hops : literalFaults (ops.yield fun t => [t.token]) = [] := by simp
      have hone : literalFaults (p.token :: ops.yield fun t => [t.token]) =
          literalFaults [p.token] ++ literalFaults (ops.yield fun t => [t.token]) := by
        rw [← literalFaults_append, List.singleton_append]
      cases kw <;> simp [Concrete.Decl.yield, FixityKeyword.yield, hone, hops]
  | typeClass _ n v body =>
    refine ((Reads.none_mapM (reads_buildSignature file) _).map _).congr ?_
    cases body <;> simp [Concrete.Decl.yield]
  | inst _ head body =>
    have heqs := Reads.mapM (reads_buildEquation file) (body.elim [] Block.toList)
    have hbody : literalFaults (Concrete.Decl.inst ‹_› head body).yield =
        (body.elim [] Block.toList).flatMap fun e => literalFaults e.yield := by
      cases body <;> simp [Concrete.Decl.yield]
    rw [hbody]
    refine (reads_buildQualTy file head).bind fun q => ?_
    split
    · exact heqs.map _
    · exact .misuse _ _
  | equation e => exact (reads_buildEquation file e).map _
  | pattern e => exact (reads_buildPatEquation file e).map _

theorem reads_buildTopDecl (p : Progress) (d : TopDecl) :
    Reads (literalFaults d.yield) (buildTopDecl file p d) := by
  cases d with
  | header _ n =>
    rw [buildTopDecl]
    split
    · exact .misuse _ _
    · exact (Reads.pure _).congr (by simp [TopDecl.yield])
  | importDecl _ n =>
    rw [buildTopDecl]
    split
    · exact .misuse _ _
    · exact (Reads.pure _).congr (by simp [TopDecl.yield])
  | decl d => exact (reads_buildDecl file d).map _

theorem reads_foldlM_buildTopDecl (ds : List TopDecl) (p : Progress) :
    Reads (ds.flatMap fun d => literalFaults d.yield) (ds.foldlM (buildTopDecl file) p) := by
  induction ds generalizing p with
  | nil => exact .pure p
  | cons d ds ih =>
    rw [List.foldlM_cons, List.flatMap_cons]
    exact (reads_buildTopDecl file p d).bind ih

theorem reads_buildModule (m : Concrete.Module) :
    Reads (literalFaults m.yield) (buildModule file m) := by
  refine ((reads_foldlM_buildTopDecl file m.toList {}).map _).congr ?_
  cases h : m.decls <;> simp [Concrete.Module.yield, Concrete.Module.toList, h]

-- Texts

theorem literalFault?_eq_none {t : Token} (hi : t.kind ≠ .int) (hs : t.kind ≠ .string) :
    literalFault? t = none := by
  unfold literalFault?
  split <;> simp_all

/-- The other tokens need not be looked at. -/
theorem literalFaults_filter {p : Token → Bool} (ts : List Token)
    (h : ∀ t, p t = false → t.kind ≠ .int ∧ t.kind ≠ .string) :
    literalFaults (ts.filter p) = literalFaults ts := by
  induction ts with
  | nil => rfl
  | cons t ts ih =>
    cases hp : p t with
    | true =>
      rw [List.filter_cons_of_pos hp, ← List.singleton_append, ← List.singleton_append (l := ts),
        literalFaults_append, literalFaults_append, ih]
    | false =>
      rw [List.filter_cons_of_neg (by simpa using hp), ih, ← List.singleton_append (l := ts),
        literalFaults_append, literalFaults_singleton,
        literalFault?_eq_none (h t hp).1 (h t hp).2]
      rfl

/-- Layout leaves literals as they are. -/
theorem literalFaults_process (w : Int) {ts : List Token}
    (h : ∀ t ∈ ts, Layout.isSynthetic t.kind = false) :
    literalFaults (Layout.process w ts) = literalFaults ts := by
  have hrun : Layout.Emitted ts (Layout.run w {} ts).2 (Layout.run w {} ts).1 := by
    simpa using Layout.Emitted.empty.run w h
  obtain ⟨s, -, whole⟩ := hrun.finish
  have hreal := congrArg literalFaults whole.real
  rw [literalFaults_filter, literalFaults_filter] at hreal
  · exact hreal
  · intro t ht
    simp_all
  · intro t ht
    constructor <;> rintro hk <;> simp [hk, Layout.isSynthetic] at ht

theorem isSynthetic_of_mem_lex {source : List Char} :
    ∀ t ∈ (Lex.lex source).tokens, Layout.isSynthetic t.kind = false := by
  intro t ht
  obtain ⟨h1, h2, h3⟩ := Lex.kind_ne_of_mem_lex ht
  unfold Layout.isSynthetic
  split <;> simp_all

/-- The faults of the literals in a text. -/
def textFaults (source : String) : List Fault := literalFaults (Lex.lex source.toList).tokens

theorem conclude_eq_ok_iff {α : Type} {ts : List Token} {failure : Option (Char × Position)}
    {x : Except (List Token) α} {a : α} :
    conclude ts failure x = .ok a ↔ failure = none ∧ x = .ok a := by
  cases x with
  | ok b => cases failure <;> simp [conclude]
  | error rest => cases rest <;> cases failure <;> simp [conclude]

theorem readModule_eq_ok_iff {w : Int} {source : String} {c : Concrete.Module} :
    readModule w source = .ok c ↔ (Lex.lex source.toList).failure = none ∧
      c.yield = Layout.process w (Lex.lex source.toList).tokens := by
  rw [readModule, conclude_eq_ok_iff, Module.parse_eq_ok_iff]
  refine and_congr_right fun hf => ?_
  rw [layoutTokens, hf]
  rfl

/-- Reading a text goes through all of its literals. -/
theorem textFaults_of_parseModule {w : Int} {file : Option String} {source : String} {m : Module}
    (h : parseModule w file source = .ok m) : textFaults source = [] := by
  unfold parseModule at h
  split at h
  · cases h
  cases hc : readModule w source with
  | error e => simp [hc] at h
  | ok c =>
    have hreads := reads_buildModule file c
    rw [(readModule_eq_ok_iff.mp hc).2, literalFaults_process w isSynthetic_of_mem_lex] at hreads
    cases hb : buildModule file c with
    | error f => simp [hc, hb, Except.mapError] at h
    | ok m =>
      rw [hb] at hreads
      exact hreads

/-- If reading fails though the source is not at fault, then it is a literal, or the tab width. -/
theorem parseModule_eq_error {w : Int} {file : Option String} {source : String} {f : Failure}
    (h : parseModule w file source = .error f) :
    (∃ ds, f = .source ds) ∨ (f = .tabWidthOutOfRange ∧ Layout.isMeasurable w = false) ∨
      ∃ g ∈ textFaults source, f = g.failure := by
  unfold parseModule at h
  split at h
  · rename_i g hg
    cases h
    split at hg
    · cases hg
    · rename_i hw
      obtain ⟨ts, -, rfl⟩ := Option.map_eq_some_iff.mp hg
      split
      · exact .inl ⟨_, rfl⟩
      · exact .inr (.inl ⟨rfl, by simpa using hw⟩)
  cases hc : readModule w source with
  | error e =>
    simp only [hc] at h
    cases h
    exact .inl ⟨_, rfl⟩
  | ok c =>
    have hreads := reads_buildModule file c
    rw [(readModule_eq_ok_iff.mp hc).2, literalFaults_process w isSynthetic_of_mem_lex] at hreads
    simp only [hc] at h
    cases hb : buildModule file c with
    | ok m => simp [hb, Except.mapError] at h
    | error g =>
      rw [hb] at h hreads
      cases h
      cases g with
      | misuse m loc => exact .inl ⟨_, rfl⟩
      | literalTooLong | badString => exact .inr (.inr ⟨_, hreads, rfl⟩)

end Surface

end TypeLens
