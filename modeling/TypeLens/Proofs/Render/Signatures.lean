import TypeLens.Proofs.Lex.Words
import TypeLens.Proofs.Render.SourceTypes
import TypeLens.Proofs.Surface.Spans

/-!
Rendered schemes read back. A text on one line that spells the tokens of a tree is read as that
tree: layout adds nothing to it and never measures an indentation. A context of one constraint
stands before the arrow as it is, one of several constraints as a tuple; a signature with the text
of a scheme is the scheme but for its quantifiers and the modules of its names.
-/

namespace TypeLens

open Concrete

namespace Layout

variable {w : Int} {s : State} {t : Token} {ts : List Token}

/-- No line end and no block is waiting. -/
structure State.Idle (s : State) : Prop where
  pending : s.pending = none
  blocks : s.blocks = []
  expectBlock : s.expectBlock = false

theorem State.Idle.shift (h : s.Idle) (ht : t.kind ≠ .kwWhere) : (shift s t).Idle := by
  obtain ⟨hp, hb, he⟩ := h
  unfold Layout.shift
  split <;> first | exact ⟨hp, hb, he⟩ | contradiction

theorem step_inline (h : s.Idle) (ht : t.kind ≠ .newline ∧ t.kind ≠ .kwWhere) :
    (step w s t).1 = [t] ∧ (step w s t).2.Idle := by
  have hbegun : (begin w s t).Idle := by
    unfold begin
    split
    · exact ⟨rfl, h.blocks, h.expectBlock⟩
    · exact h
  have hopen : openBlock w (begin w s t) t = ([], begin w s t) :=
    openBlock_of_not_expectBlock t hbegun.expectBlock
  have hstart : startLine w (begin w s t) = ([], begin w s t) :=
    startLine_of_pending_none hbegun.pending
  simp only [step, if_neg ht.1, hopen, hstart]
  exact ⟨rfl, hbegun.shift ht.2⟩

theorem run_inline (h : s.Idle) (hts : Lex.Inline ts) :
    (run w s ts).1 = ts ∧ (run w s ts).2.Idle := by
  induction ts generalizing s with
  | nil => exact ⟨rfl, h⟩
  | cons t ts ih =>
    obtain ⟨hout, hidle⟩ := step_inline (w := w) h (hts t List.mem_cons_self)
    obtain ⟨hrest, hend⟩ := ih hidle fun u hu => hts u (List.mem_cons_of_mem t hu)
    refine ⟨?_, hend⟩
    rw [run, hout, hrest]
    rfl

theorem process_inline (hts : Lex.Inline ts) : process w ts = ts := by
  obtain ⟨hout, -, hblocks, hexpect⟩ := run_inline (w := w) (s := {}) ⟨rfl, rfl, rfl⟩ hts
  have hfinish : finish (run w {} ts).2 = [] := by
    rw [finish, hblocks, hexpect]
    cases (run w {} ts).2.last <;> rfl
  rw [process, hout, hfinish, List.append_nil]

theorem beforeIndent_inline (h : s.Idle) (hts : Lex.Inline ts) : beforeIndent s ts = none := by
  induction ts generalizing s with
  | nil => rfl
  | cons t ts ih =>
    obtain ⟨-, hidle⟩ := step_inline (w := 0) h (hts t List.mem_cons_self)
    have hrest := ih hidle fun u hu => hts u (List.mem_cons_of_mem t hu)
    simp [beforeIndent, h.pending, hrest]

end Layout

theorem Lex.Inline.of_relocate {f : Position → Position} {ts : List Token}
    (h : Lex.Inline (ts.map (Token.relocate f))) : Lex.Inline ts := fun t ht =>
  h (t.relocate f) (List.mem_map_of_mem ht)

theorem Lex.Spells.lex_eq {source : String} {ts : List Token} (h : Lex.Spells source ts) :
    (Lex.lex source.toList).failure = none ∧
      (Lex.lex source.toList).tokens.map (Token.relocate fun _ => .first) = ts := by
  obtain ⟨ps, hps, rfl⟩ := h.begins [] (by simp)
  rw [List.append_nil, Lex.pieces_nil, List.append_nil] at hps
  rw [Lex.lex, hps]
  exact ⟨rfl, Lex.relocate_tokensFrom .first ps⟩

namespace Surface

variable {w : Int} {file : Option String} {source : String}

/-- The tree of a module with one declaration and no header. -/
def declaring (d : Concrete.Decl) : Concrete.Module := ⟨some ⟨.decl d, []⟩⟩

theorem yield_declaring (d : Concrete.Decl) : (declaring d).yield = d.yield :=
  List.append_nil _

theorem buildModule_declaring {d : Concrete.Decl} {d' : Decl} (hd : buildDecl file d = .ok d') :
    buildModule file (declaring d) =
      .ok ⟨"Main", [], [d'], spanOf file (declaring d).yield, { file }⟩ := by
  have htop : buildTopDecl file {} (.decl d) = .ok { decls := [d'] } := by
    rw [buildTopDecl, hd]
    rfl
  have hfold : (declaring d).toList.foldlM (buildTopDecl file) {} = .ok { decls := [d'] } := by
    change (buildTopDecl file {} (.decl d) >>= pure) = _
    rw [htop]
    rfl
  rw [buildModule, hfold]
  rfl

/-- A text on one line is the module of the tree whose tokens it spells. -/
theorem parseModule_of_spells {c : Concrete.Module} (hs : Lex.Spells source c.yield) {m : Module}
    (hm : buildModule file c = .ok m) :
    ∃ m', parseModule w file source = .ok m' ∧
      m'.mapSpans (fun _ => .unknown) = m.mapSpans (fun _ => .unknown) := by
  obtain ⟨hnone, hyield⟩ := hs.lex_eq
  set ts := (Lex.lex source.toList).tokens with hts
  have hinline : Lex.Inline ts := Lex.Inline.of_relocate (hyield ▸ hs.inline)
  have hsame : ts.map (Token.relocate fun _ => .first) =
      c.yield.map (Token.relocate fun _ => .first) := by
    rw [← hyield, List.map_map]
    rfl
  obtain ⟨c', hc', hrel⟩ := Module.parse_congr hsame rfl
  have hread : readModule w source = .ok c' := by
    rw [readModule_eq_ok_iff, ← hts, Layout.process_inline hinline]
    exact ⟨hnone, hc'⟩
  have hbuild := buildModule_congr (forgets_all file) hrel
  rw [hm] at hbuild
  obtain ⟨m', hm', hspans⟩ := Option.map_eq_some_iff.mp hbuild
  have hunmeasured : unmeasured? file source = none := by
    rw [unmeasured?, ← hts, Layout.beforeIndent_inline ⟨rfl, rfl, rfl⟩ hinline]
    rfl
  refine ⟨m', ?_, hspans⟩
  unfold parseModule
  rw [hunmeasured, ite_self, hread]
  change (buildModule file c').mapError Fault.failure = .ok m'
  cases hb : buildModule file c' with
  | error f =>
    rw [hb] at hm'
    cases hm'
  | ok x =>
    rw [hb] at hm'
    exact congrArg Except.ok (Option.some.inj hm')

end Surface

open Surface

/-- A class constraint on a type variable. -/
structure SourcePred where
  cls : Conid
  tyvar : Varid

namespace SourcePred

variable (p : SourcePred)

def pred : Pred := ⟨p.cls.name, .var p.tyvar.text⟩

def expr : PredExpr := ⟨p.cls.name.occ, p.tyvar.text, .unknown⟩

def text : String := p.cls.name.occ ++ " " ++ p.tyvar.text

def tree : AppliedTy :=
  .app (.atom (.con (.bare .conid p.cls.name.occ))) (.var (.bare .varid p.tyvar.text))

theorem spells_tree : Lex.Spells p.text p.tree.yield :=
  (Lex.Spells.conid p.cls.isConid).between .blank (.varid p.tyvar.isVarid)

theorem render_ty : p.pred.ty.render .never = p.text := by
  simp [pred, Pred.ty, Ty.render, Ty.renderAt, renderContext, parens, text, Name.render,
    Policy.never]

theorem buildPred_tree (file : Option String) :
    ∃ e, buildPred file (.plain p.tree) = .ok e ∧ e.mapSpans (fun _ => .unknown) = p.expr :=
  ⟨_, rfl, rfl⟩

theorem buildPred_trees (file : Option String) (ps : List SourcePred) :
    ∃ es, (ps.map fun p => FullTy.plain p.tree).mapM (buildPred file) = .ok es ∧
      es.map (PredExpr.mapSpans fun _ => .unknown) = ps.map expr := by
  induction ps with
  | nil => exact ⟨[], rfl, rfl⟩
  | cons p ps ih =>
    obtain ⟨e, he, hp⟩ := p.buildPred_tree file
    obtain ⟨es, hes, hps⟩ := ih
    refine ⟨e :: es, ?_, by simp [hp, hps]⟩
    rw [List.map_cons, List.mapM_cons, he, hes]
    rfl

end SourcePred

/-- The text of constraints with commas between them, up to the closing bracket. -/
theorem spells_tupleTail (p : SourcePred) (ps : List SourcePred) :
    ∃ rest : TupleTail,
      Lex.Spells (", ".intercalate ((p :: ps).map SourcePred.text) ++ ")") rest.yield ∧
        rest.items = (p :: ps).map fun p => .plain p.tree := by
  induction ps generalizing p with
  | nil =>
    refine ⟨.last (.plain p.tree) (.bare .rparen ")"), ?_, rfl⟩
    simpa [TupleTail.yield, FullTy.yield] using
      p.spells_tree.closed (r := ')') rfl rfl ⟨nofun, nofun⟩
  | cons q ps ih =>
    obtain ⟨rest, hrest, hitems⟩ := ih q
    refine ⟨.more (.plain p.tree) (.bare .comma ",") rest, ?_, by rw [TupleTail.items, hitems]; rfl⟩
    have hboth := p.spells_tree.between .comma hrest
    simpa [String.append_assoc, TupleTail.yield, FullTy.yield] using hboth

/-- The tree of the constraints before an arrow. -/
theorem exists_context (p : SourcePred) (ps : List SourcePred) :
    ∃ (c : AppliedTy) (s : String), Lex.Spells s c.yield ∧
      renderContext ((p :: ps).map SourcePred.text) = s ++ " => " ∧
      contextItems c = (p :: ps).map fun p => .plain p.tree := by
  match ps with
  | [] => exact ⟨p.tree, p.text, p.spells_tree, rfl, rfl⟩
  | r :: ps =>
    obtain ⟨rest, hrest, hitems⟩ := spells_tupleTail r ps
    refine ⟨.atom (.tuple (.bare .lparen "(") (.plain p.tree) (.bare .comma ",") rest), _,
      (p.spells_tree.between .comma hrest).opened (l := '(') rfl rfl ⟨nofun, nofun⟩, ?_, ?_⟩
    · have hclose : ") => " = ")" ++ " => " := rfl
      have hmany : renderContext ((p :: r :: ps).map SourcePred.text) =
          "(" ++ ", ".intercalate ((p :: r :: ps).map SourcePred.text) ++ ") => " := rfl
      rw [hmany, List.map_cons, List.map_cons, String.intercalate_cons_cons, hclose]
      simp only [String.append_assoc]
      rfl
    · rw [contextItems, contextAtom, hitems]
      rfl

/-- A scheme that a signature can spell, but for its quantifiers. -/
structure SourceScheme where
  context : List SourcePred
  body : SourceTy

namespace SourceScheme

variable (q : SourceScheme)

def scheme (tvs : List String) : Scheme := ⟨tvs, q.context.map SourcePred.pred, q.body.ty⟩

/-- The qualified type that stands for the scheme, without spans. -/
def expr : QualType := ⟨q.context.map SourcePred.expr, q.body.expr, .unknown⟩

theorem render_scheme (tvs : List String) : (q.scheme tvs).render .never =
    renderContext (q.context.map SourcePred.text) ++ q.body.ty.renderAt .never .top [] := by
  have htexts : ((q.context.map SourcePred.pred).map Pred.ty).map (Ty.render .never) =
      q.context.map SourcePred.text := by
    rw [List.map_map, List.map_map]
    exact List.map_congr_left fun p _ => p.render_ty
  rw [Scheme.render, renderQualified, scheme, htexts]
  rfl

theorem readsBack (file : Option String) (tvs : List String) :
    ReadsAs QualTy.yield (buildQualTy file) QualType.mapSpans ((q.scheme tvs).render .never)
      q.expr := by
  obtain ⟨t, x, ht, hx, hbody⟩ := (q.body.readsBack file).top
  rw [q.render_scheme]
  obtain ⟨context, body⟩ := q
  match context with
  | [] =>
    have hbuild : buildQualTy file (.plain t) =
        .ok ⟨[], x, (QualTy.plain t).region.span file⟩ := by
      rw [buildQualTy, hx]
      rfl
    refine ⟨.plain t, _, ?_, hbuild, congrArg (QualType.mk [] · .unknown) hbody⟩
    simpa [renderContext, QualTy.yield] using ht
  | p :: ps =>
    obtain ⟨c, s, hc, htext, hitems⟩ := exists_context p ps
    obtain ⟨es, hes, hpreds⟩ := SourcePred.buildPred_trees file (p :: ps)
    let tree : QualTy := .qualified c (.bare .fatArrow "=>") t
    have hbuild : buildQualTy file tree = .ok ⟨es, x, tree.region.span file⟩ := by
      rw [buildQualTy, hitems, hes, hx]
      rfl
    refine ⟨tree, _, ?_, hbuild, ?_⟩
    · rw [htext]
      simpa [tree, QualTy.yield] using hc.between .fatArrow ht
    · rw [QualType.mapSpans, hpreds, hbody]
      rfl

/-- What is left of a module that declares `x` with the type, spans aside. -/
def declaration : Surface.Module :=
  ⟨"Main", [], [.sig ⟨[("x", .unknown)], q.expr, .unknown⟩], .unknown, .unknown⟩

theorem parse_signature (w : Int) (file : Option String) (tvs : List String) :
    ∃ m, parseModule w file ("x :: " ++ (q.scheme tvs).render .never) = .ok m ∧
      m.mapSpans (fun _ => .unknown) = q.declaration := by
  obtain ⟨t, x, ht, hx, hexpr⟩ := q.readsBack file tvs
  let name : Tok .varid := .bare .varid "x"
  let sig : Signature := ⟨⟨.var name, []⟩, .bare .doubleColon "::", t⟩
  have hspells : Lex.Spells ("x :: " ++ (q.scheme tvs).render .never)
      (declaring (.signature sig)).yield := by
    have hall := (Lex.Spells.varid (s := "x") (by decide)).between .doubleColon ht
    rw [yield_declaring]
    simpa [sig, name, Concrete.Decl.yield, Signature.yield, SepBy.yield, Binder.yield] using hall
  have hbuild : buildDecl file (.signature sig) =
      .ok (.sig ⟨[("x", name.region.span file)], x, spanOf file sig.yield⟩) := by
    rw [buildDecl, buildSignature, hx]
    rfl
  obtain ⟨m, hm, hspans⟩ := parseModule_of_spells (w := w) hspells (buildModule_declaring hbuild)
  refine ⟨m, hm, hspans.trans ?_⟩
  simp [Surface.Module.mapSpans, Decl.mapSpans, TypeSig.mapSpans, hexpr, declaration]

end SourceScheme

-- What a text tells apart

/-- A type or a class as if it came from the bundled module. Names of types and classes are
top-level names of one space, so that nothing but the module is lost. -/
def Name.moved (n : Name) : Name := Builtin.typeName n.occ

def Ty.moved : Ty → Ty
  | .var v => .var v
  | .uvar m => .uvar m
  | .con c => .con c.moved
  | .app t u => .app t.moved u.moved
  | .pred c t => .pred c.moved t.moved
  | .forAll tvs t => .forAll tvs t.moved

/-- A scheme without its quantifiers and the modules of its names. -/
def Scheme.bare (s : Scheme) : Scheme :=
  ⟨[], s.preds.map fun p => ⟨p.cls.moved, p.arg.moved⟩, s.body.moved⟩

mutual

/-- The type that an expression spells if all names are those of the bundled module. -/
def Surface.TypeExpr.spelled : TypeExpr → Ty
  | .var v _ => .var v
  | .con n args _ => .apps (.con (Builtin.typeName n)) (TypeExpr.spelledAll args)
  | .fn t u _ => .fn t.spelled u.spelled

def Surface.TypeExpr.spelledAll : List TypeExpr → List Ty
  | [] => []
  | t :: ts => t.spelled :: TypeExpr.spelledAll ts

end

theorem Surface.TypeExpr.spelledAll_append (ts us : List TypeExpr) :
    TypeExpr.spelledAll (ts ++ us) = TypeExpr.spelledAll ts ++ TypeExpr.spelledAll us := by
  induction ts with
  | nil => rfl
  | cons t ts ih => rw [List.cons_append, spelledAll, spelledAll, ih, List.cons_append]

mutual

theorem SourceTy.spelled_expr : ∀ t : SourceTy, t.expr.spelled = t.ty.moved
  | .var _ => rfl
  | .list t => congrArg Ty.list t.spelled_expr
  | .fn t u => congrArg₂ Ty.fn t.spelled_expr u.spelled_expr
  | .applied t => t.spelled_args

theorem SourceApp.spelled_args : ∀ t : SourceApp,
    Ty.apps (.con (Builtin.typeName t.head)) (TypeExpr.spelledAll t.args) = t.ty.moved
  | .con _ => rfl
  | .app f a => by
    rw [SourceApp.args, TypeExpr.spelledAll_append, Ty.apps_append]
    exact congrArg₂ Ty.app f.spelled_args a.spelled_expr

end

def Surface.QualType.spelled (q : QualType) : Scheme :=
  ⟨[], q.context.map fun p => ⟨Builtin.typeName p.cls, .var p.tyvar⟩, q.body.spelled⟩

namespace SourceScheme

variable (q : SourceScheme)

theorem spelled_expr (tvs : List String) : q.expr.spelled = (q.scheme tvs).bare := by
  rw [QualType.spelled, expr, Scheme.bare, scheme, q.body.spelled_expr, List.map_map, List.map_map]
  rfl

theorem eq_of_render_eq {q q' : SourceScheme} {tvs tvs' : List String}
    (h : (q'.scheme tvs').render .never = (q.scheme tvs).render .never) :
    (q'.scheme tvs').bare = (q.scheme tvs).bare := by
  obtain ⟨m, hm, hq⟩ := q.parse_signature 8 none tvs
  obtain ⟨m', hm', hq'⟩ := q'.parse_signature 8 none tvs'
  rw [h, hm] at hm'
  obtain rfl := Except.ok.inj hm'
  have hdecl : q'.declaration = q.declaration := hq'.symm.trans hq
  have hexpr : q'.expr = q.expr := by simpa [declaration] using hdecl
  rw [← q'.spelled_expr, ← q.spelled_expr, hexpr]

/-- A signature with the text of a scheme declares the type that the scheme is, constraints in
order, and so schemes that are rendered alike differ in quantifiers and modules alone. -/
theorem parse_render_scheme (w : Int) (file : Option String) (tvs : List String) :
    (∃ m, parseModule w file ("x :: " ++ (q.scheme tvs).render .never) = .ok m ∧
      m.mapSpans (fun _ => .unknown) = q.declaration) ∧
    ∀ (q' : SourceScheme) (tvs' : List String),
      (q'.scheme tvs').render .never = (q.scheme tvs).render .never →
        (q'.scheme tvs').bare = (q.scheme tvs).bare :=
  ⟨q.parse_signature w file tvs, fun _ _ => eq_of_render_eq⟩

end SourceScheme

end TypeLens
