import TypeLens.Proofs.Grammar.Readings
import TypeLens.Surface.Parse

/-!
Every derivation tree of the grammar is the tree of some concrete syntax. So parsing finds the
derivation of its input, which is the only one, and fails only where there is none.
-/

namespace TypeLens.Concrete

open Grammar
open Grammar.Tree (Fits)

/-- Concrete syntax for a tree with this root. -/
def Reading (T : Tree) : Symbol → Prop
  | .tok k => ∃ t : Tok k, t.tree = T
  | .rule .module => ∃ m : Module, m.tree = T
  | .rule .topdecl => ∃ d : TopDecl, d.tree = T
  | .rule .moduleHeader =>
    ∃ (kw : Tok .kwModule) (n : Tok .conid), .node .moduleHeader [kw.tree, n.tree] = T
  | .rule .importDecl =>
    ∃ (kw : Tok .kwImport) (n : Tok .conid), .node .importDecl [kw.tree, n.tree] = T
  | .rule .dataDecl => ∃ kw n vs cons, (Decl.data kw n vs cons).tree = T
  | .rule .constr => ∃ c : Constructor, c.tree = T
  | .rule .sigDecl => ∃ s : Signature, s.tree = T
  | .rule .primDecl => ∃ kw s, (Decl.primitive kw s).tree = T
  | .rule .binder => ∃ b : Binder, b.tree = T
  | .rule .fixityDecl => ∃ kw p ops, (Decl.fixity kw p ops).tree = T
  | .rule .fixityKw => ∃ kw : FixityKeyword, kw.tree = T
  | .rule .classDecl => ∃ kw n v body, (Decl.typeClass kw n v body).tree = T
  | .rule .instanceDecl => ∃ kw h body, (Decl.inst kw h body).tree = T
  | .rule .funEquation => ∃ e : Equation, e.tree = T
  | .rule .patEquation => ∃ e : PatEquation, e.tree = T
  | .rule .patLhs => ∃ l : PatLhs, l.tree = T
  | .rule .qualType => ∃ t : QualTy, t.tree = T
  | .rule .type => ∃ t : FullTy, t.tree = T
  | .rule .btype => ∃ t : AppliedTy, t.tree = T
  | .rule .atype => ∃ t : AtomicTy, t.tree = T
  | .rule .expr => ∃ e : FullExpr, e.tree = T
  | .rule .kwExpr => ∃ e : KeywordExpr, e.tree = T
  | .rule .infixExpr => ∃ e : Operation, .node .infixExpr e.trees = T
  | .rule .letBinds => ∃ b : LetBinds, b.tree = T
  | .rule .letBind => ∃ b : LetBind, b.tree = T
  | .rule .alt => ∃ a : CaseAlt, a.tree = T
  | .rule .fexp => ∃ e : AppliedExpr, e.tree = T
  | .rule .aexp => ∃ e : AtomicExpr, e.tree = T
  | .rule .pat => ∃ p : FullPat, p.tree = T
  | .rule .lpat => ∃ p : AppliedPat, p.tree = T
  | .rule .apat => ∃ p : AtomicPat, p.tree = T

/-- Trees in order for `P`, for all of which there is concrete syntax. -/
def Covers (P : Form) (Ts : List Tree) : Prop := Fits P Ts ∧ ∀ T ∈ Ts, Reading T T.symbol

section Covers

variable {P Q R : Form} {Ts : List Tree} {s : Symbol}

@[simp]
theorem covers_add : Covers (P + Q) Ts ↔ Covers P Ts ∨ Covers Q Ts := by
  simp [Covers, or_and_right]

theorem covers_mul : Covers (P * Q) Ts ↔ ∃ us vs, Covers P us ∧ Covers Q vs ∧ Ts = us ++ vs := by
  constructor
  · rintro ⟨h, hr⟩
    obtain ⟨us, vs, hu, hv, rfl⟩ := Tree.fits_mul.mp h
    exact ⟨us, vs, ⟨hu, fun T hT => hr T (by simp [hT])⟩, ⟨hv, fun T hT => hr T (by simp [hT])⟩, rfl⟩
  · rintro ⟨us, vs, hu, hv, rfl⟩
    exact ⟨hu.1.append hv.1, List.forall_mem_append.mpr ⟨hu.2, hv.2⟩⟩

@[simp]
theorem covers_mul_assoc : Covers (P * Q * R) Ts ↔ Covers (P * (Q * R)) Ts := by
  simp [Covers]

@[simp]
theorem covers_char : Covers (.char s) Ts ↔ ∃ T, (T.symbol = s ∧ Reading T s) ∧ Ts = [T] := by
  constructor
  · rintro ⟨h, hr⟩
    obtain ⟨T, rfl, rfl⟩ := Tree.fits_char.mp h
    exact ⟨T, ⟨rfl, hr T List.mem_cons_self⟩, rfl⟩
  · rintro ⟨T, ⟨rfl, hT⟩, rfl⟩
    exact ⟨Tree.fits_char.mpr ⟨T, rfl, rfl⟩, by simpa using hT⟩

@[simp]
theorem covers_char_mul :
    Covers (.char s * Q) Ts ↔
      ∃ T, (T.symbol = s ∧ Reading T s) ∧ ∃ Us, Covers Q Us ∧ Ts = T :: Us := by
  rw [covers_mul]
  constructor
  · rintro ⟨_, vs, hu, hv, rfl⟩
    obtain ⟨T, hT, rfl⟩ := covers_char.mp hu
    exact ⟨T, hT, vs, hv, rfl⟩
  · rintro ⟨T, hT, Us, hU, rfl⟩
    exact ⟨[T], Us, covers_char.mpr ⟨T, hT, rfl⟩, hU, rfl⟩

@[simp]
theorem covers_opt : Covers (opt P) Ts ↔ Ts = [] ∨ Covers P Ts := by
  simp only [Covers, Tree.fits_opt, or_and_right]
  constructor
  · exact Or.imp_left And.left
  · refine Or.imp_left ?_
    rintro rfl
    exact ⟨rfl, by simp⟩

@[simp]
theorem covers_opt_mul : Covers (opt P * Q) Ts ↔ Covers Q Ts ∨ Covers (P * Q) Ts := by
  simp [Covers, or_and_right]

/-- One `P` after another. -/
inductive Items (P : Form) : List Tree → Prop
  | nil : Items P []
  | append {us vs : List Tree} : Covers P us → Items P vs → Items P (us ++ vs)

theorem Covers.items (h : Covers (many P) Ts) : Items P Ts := by
  obtain ⟨h, hr⟩ := h
  refine Tree.Fits.many_induction (motive := fun Us => (∀ T ∈ Us, Reading T T.symbol) → Items P Us)
    h (fun _ => .nil) ?_ hr
  intro us vs hu hv hr
  obtain ⟨hu', hv'⟩ := List.forall_mem_append.mp hr
  exact .append ⟨hu, hu'⟩ (hv hv')

section Items

variable {α : Type} {f : α → Tree} (item : ∀ us, Covers P us → ∃ a, us = [f a])

include item

theorem Items.exists_map (h : Items P Ts) : ∃ as : List α, as.map f = Ts := by
  induction h with
  | nil => exact ⟨[], rfl⟩
  | append hu _ ih =>
    obtain ⟨a, rfl⟩ := item _ hu
    obtain ⟨as, rfl⟩ := ih
    exact ⟨a :: as, rfl⟩

theorem Items.exists_separated {sep : Terminal} (h : Items (tok sep * P) Ts) :
    ∃ as : List (Tok sep × α), as.flatMap (fun p => [p.1.tree, f p.2]) = Ts := by
  induction h with
  | nil => exact ⟨[], rfl⟩
  | append hu _ ih =>
    simp only [covers_char_mul, Reading] at hu
    obtain ⟨_, ⟨-, t, rfl⟩, us, hu, rfl⟩ := hu
    obtain ⟨a, rfl⟩ := item us hu
    obtain ⟨as, rfl⟩ := ih
    exact ⟨(t, a) :: as, rfl⟩

theorem Covers.exists_sepBy {sep : Terminal} (h : Covers (sepBy sep P) Ts) :
    ∃ s : SepBy sep α, s.trees f = Ts := by
  obtain ⟨us, vs, hu, hv, rfl⟩ := covers_mul.mp h
  obtain ⟨a, rfl⟩ := item us hu
  obtain ⟨as, rfl⟩ := hv.items.exists_separated item
  exact ⟨⟨a, as⟩, rfl⟩

theorem Covers.exists_block (h : Covers (whereBlock P) Ts) :
    ∃ b : Block α, b.trees f = Ts := by
  simp only [whereBlock, covers_mul_assoc, covers_char_mul, Reading] at h
  obtain ⟨_, ⟨-, kw, rfl⟩, _, ⟨_, ⟨-, opening, rfl⟩, _, h, rfl⟩, rfl⟩ := h
  obtain ⟨us, vs, hu, hv, rfl⟩ := covers_mul.mp h
  obtain ⟨r, rfl⟩ : ∃ r : Tok .blockClose, vs = [r.tree] := by simpa [Reading] using hv
  rcases covers_opt.mp hu with rfl | hu
  · exact ⟨⟨kw, opening, none, r⟩, rfl⟩
  · obtain ⟨s, rfl⟩ := hu.exists_sepBy item
    exact ⟨⟨kw, opening, some s, r⟩, by simp [Block.trees]⟩

end Items

theorem Items.exists_atomicPats (h : Items (rule .apat) Ts) : ∃ ps : AtomicPats, ps.trees = Ts := by
  induction h with
  | nil => exact ⟨.nil, rfl⟩
  | @append us _ hu _ ih =>
    obtain ⟨p, rfl⟩ : ∃ p : AtomicPat, us = [p.tree] := by simpa [Reading] using hu
    obtain ⟨ps, rfl⟩ := ih
    exact ⟨.cons p ps, rfl⟩

theorem Items.exists_tupleTail (h : Items (tok .comma * rule .type) Ts) (t : FullTy)
    (r : Tok .rparen) : ∃ l : TupleTail, l.trees = t.tree :: (Ts ++ [r.tree]) := by
  induction h generalizing t with
  | nil => exact ⟨.last t r, by simp⟩
  | @append us _ hu _ ih =>
    obtain ⟨c, u, rfl⟩ : ∃ (c : Tok .comma) (t : FullTy), us = [c.tree, t.tree] := by
      simpa [Reading] using hu
    obtain ⟨l, hl⟩ := ih u
    exact ⟨.more t c l, by simp [hl]⟩

theorem Items.exists_listTail (h : Items (tok .comma * rule .expr) Ts) (r : Tok .rbracket) :
    ∃ l : ListTail, l.trees = Ts ++ [r.tree] := by
  induction h with
  | nil => exact ⟨.close r, by simp⟩
  | @append us _ hu _ ih =>
    obtain ⟨c, e, rfl⟩ : ∃ (c : Tok .comma) (e : FullExpr), us = [c.tree, e.tree] := by
      simpa [Reading] using hu
    obtain ⟨l, hl⟩ := ih
    exact ⟨.more c e l, by simp [hl]⟩

theorem Items.exists_operation (h : Items (tok .operator * rule .fexp) Ts) (e : AppliedExpr)
    (last : Option (Tok .operator × KeywordExpr)) :
    ∃ o : Operation, o.trees = e.tree :: (Ts ++ last.elim [] fun p => [p.1.tree, p.2.tree]) := by
  induction h generalizing e with
  | nil =>
    cases last with
    | none => exact ⟨.last e, by simp⟩
    | some p => exact ⟨.keyword e p.1 p.2, by simp⟩
  | @append us _ hu _ ih =>
    obtain ⟨op, a, rfl⟩ : ∃ (op : Tok .operator) (a : AppliedExpr), us = [op.tree, a.tree] := by
      simpa [Reading] using hu
    obtain ⟨o, ho⟩ := ih a
    exact ⟨.more e op o, by simp [ho]⟩

theorem Items.exists_altTail (h : Items (tok .semi * rule .alt) Ts) (semi : Option (Tok .semi))
    (r : Tok .rbrace) : ∃ l : AltTail, l.trees = Ts ++ (semi.elim [] fun s => [s.tree]) ++ [r.tree] := by
  induction h with
  | nil =>
    cases semi with
    | none => exact ⟨.close r, by simp⟩
    | some s => exact ⟨.trailing s r, by simp⟩
  | @append us _ hu _ ih =>
    obtain ⟨s, a, rfl⟩ : ∃ (s : Tok .semi) (a : CaseAlt), us = [s.tree, a.tree] := by
      simpa [Reading] using hu
    obtain ⟨l, hl⟩ := ih
    exact ⟨.more s a l, by simp [hl]⟩

theorem Items.exists_letTail (h : Items (tok .semi * rule .letBind) Ts) (semi : Option (Tok .semi))
    (r : Tok .rbrace) : ∃ l : LetTail, l.trees = Ts ++ (semi.elim [] fun s => [s.tree]) ++ [r.tree] := by
  induction h with
  | nil =>
    cases semi with
    | none => exact ⟨.close r, by simp⟩
    | some s => exact ⟨.trailing s r, by simp⟩
  | @append us _ hu _ ih =>
    obtain ⟨s, b, rfl⟩ : ∃ (s : Tok .semi) (b : LetBind), us = [s.tree, b.tree] := by
      simpa [Reading] using hu
    obtain ⟨l, hl⟩ := ih
    exact ⟨.more s b l, by simp [hl]⟩

theorem Covers.exists_braces (h : Covers (braces P) Ts) :
    ∃ (l : Tok .lbrace) (us vs : List Tree) (semi : Option (Tok .semi)) (r : Tok .rbrace),
      Covers P us ∧ Items (tok .semi * P) vs ∧
        Ts = l.tree :: us ++ (vs ++ (semi.elim [] fun s => [s.tree]) ++ [r.tree]) := by
  simp only [braces, sepBy, covers_mul_assoc, covers_char_mul, Reading] at h
  obtain ⟨_, ⟨-, l, rfl⟩, _, h, rfl⟩ := h
  obtain ⟨us, _, hu, tail, rfl⟩ := covers_mul.mp h
  obtain ⟨vs, ws, hv, hw, rfl⟩ := covers_mul.mp tail
  have close : ∃ (semi : Option (Tok .semi)) (r : Tok .rbrace),
      ws = (semi.elim [] fun s => [s.tree]) ++ [r.tree] := by
    simp [Reading] at hw
    rcases hw with ⟨r, rfl⟩ | ⟨s, r, rfl⟩
    · exact ⟨none, r, rfl⟩
    · exact ⟨some s, r, rfl⟩
  obtain ⟨semi, r, rfl⟩ := close
  exact ⟨l, us, vs, semi, r, hu, hv.items, by simp⟩

end Covers

/-! ### Nonterminals -/

section Readings

variable {kids : List Tree}

theorem reading_module (h : Covers (production .module) kids) :
    ∃ m : Module, m.tree = .node .module kids := by
  rcases covers_opt.mp h with rfl | h
  · exact ⟨⟨none⟩, rfl⟩
  · obtain ⟨ds, rfl⟩ := h.exists_sepBy (f := TopDecl.tree) (by simp [Reading])
    exact ⟨⟨some ds⟩, rfl⟩

theorem reading_topdecl (h : Covers (production .topdecl) kids) :
    ∃ d : TopDecl, d.tree = .node .topdecl kids := by
  simp [production, Reading] at h
  rcases h with ((((((((⟨kw, n, rfl⟩ | ⟨kw, n, rfl⟩) | ⟨kw, n, vs, cons, -, rfl⟩) | ⟨s, rfl⟩) |
    ⟨kw, s, -, rfl⟩) | ⟨kw, p, ops, -, rfl⟩) | ⟨kw, n, v, body, -, rfl⟩) | ⟨kw, ty, body, -, rfl⟩) |
    ⟨e, rfl⟩) | ⟨e, rfl⟩
  · exact ⟨.header kw n, rfl⟩
  · exact ⟨.importDecl kw n, rfl⟩
  · exact ⟨.decl (.data kw n vs cons), rfl⟩
  · exact ⟨.decl (.signature s), rfl⟩
  · exact ⟨.decl (.primitive kw s), rfl⟩
  · exact ⟨.decl (.fixity kw p ops), rfl⟩
  · exact ⟨.decl (.typeClass kw n v body), rfl⟩
  · exact ⟨.decl (.inst kw ty body), rfl⟩
  · exact ⟨.decl (.equation e), rfl⟩
  · exact ⟨.decl (.pattern e), rfl⟩

theorem reading_dataDecl (h : Covers (production .dataDecl) kids) :
    ∃ kw n vs cons, (Decl.data kw n vs cons).tree = .node .dataDecl kids := by
  simp only [production, covers_mul_assoc, covers_char_mul, Reading] at h
  obtain ⟨_, ⟨-, kw, rfl⟩, _, ⟨_, ⟨-, n, rfl⟩, _, h, rfl⟩, rfl⟩ := h
  obtain ⟨us, vs, hu, hv, rfl⟩ := covers_mul.mp h
  obtain ⟨vars, rfl⟩ := hu.items.exists_map (f := fun v : Tok .varid => v.tree)
    (by simp [Reading])
  simp only [covers_opt, covers_char_mul, Reading] at hv
  rcases hv with rfl | ⟨_, ⟨-, eq, rfl⟩, _, hc, rfl⟩
  · exact ⟨kw, n, vars, none, by simp [Decl.tree]⟩
  · obtain ⟨cons, rfl⟩ := hc.exists_sepBy (f := Constructor.tree) (by simp [Reading])
    exact ⟨kw, n, vars, some (eq, cons), by simp [Decl.tree]⟩

theorem reading_constr (h : Covers (production .constr) kids) :
    ∃ c : Constructor, c.tree = .node .constr kids := by
  simp only [production, covers_char_mul, Reading] at h
  obtain ⟨_, ⟨-, n, rfl⟩, _, h, rfl⟩ := h
  obtain ⟨args, rfl⟩ := h.items.exists_map (f := AtomicTy.tree) (by simp [Reading])
  exact ⟨⟨n, args⟩, rfl⟩

theorem reading_sigDecl (h : Covers (production .sigDecl) kids) :
    ∃ s : Signature, s.tree = .node .sigDecl kids := by
  obtain ⟨us, vs, hu, hv, rfl⟩ := covers_mul.mp (covers_mul_assoc.mp h)
  obtain ⟨names, rfl⟩ := hu.exists_sepBy (f := Binder.tree) (by simp [Reading])
  simp [Reading] at hv
  obtain ⟨colons, ty, rfl⟩ := hv
  exact ⟨⟨names, colons, ty⟩, rfl⟩

theorem reading_primDecl (h : Covers (production .primDecl) kids) :
    ∃ kw s, (Decl.primitive kw s).tree = .node .primDecl kids := by
  simp [production, Reading] at h
  obtain ⟨kw, s, rfl⟩ := h
  exact ⟨kw, s, rfl⟩

theorem reading_binder (h : Covers (production .binder) kids) :
    ∃ b : Binder, b.tree = .node .binder kids := by
  simp [production, Reading] at h
  rcases h with ⟨n, rfl⟩ | ⟨l, n, r, rfl⟩
  · exact ⟨.var n, rfl⟩
  · exact ⟨.op l n r, rfl⟩

theorem reading_fixityDecl (h : Covers (production .fixityDecl) kids) :
    ∃ kw p ops, (Decl.fixity kw p ops).tree = .node .fixityDecl kids := by
  simp only [production, covers_mul_assoc, covers_char_mul, Reading] at h
  obtain ⟨_, ⟨-, kw, rfl⟩, _, ⟨_, ⟨-, p, rfl⟩, _, h, rfl⟩, rfl⟩ := h
  obtain ⟨ops, rfl⟩ := h.exists_sepBy (f := fun op : Tok .operator => op.tree)
    (by simp [Reading])
  exact ⟨kw, p, ops, rfl⟩

theorem reading_fixityKw (h : Covers (production .fixityKw) kids) :
    ∃ kw : FixityKeyword, kw.tree = .node .fixityKw kids := by
  simp [production, Reading] at h
  rcases h with (⟨t, rfl⟩ | ⟨t, rfl⟩) | ⟨t, rfl⟩
  · exact ⟨.left t, rfl⟩
  · exact ⟨.right t, rfl⟩
  · exact ⟨.none t, rfl⟩

theorem reading_classDecl (h : Covers (production .classDecl) kids) :
    ∃ kw n v body, (Decl.typeClass kw n v body).tree = .node .classDecl kids := by
  simp only [production, covers_mul_assoc, covers_char_mul, covers_opt, Reading] at h
  obtain ⟨_, ⟨-, kw, rfl⟩, _, ⟨_, ⟨-, n, rfl⟩, _, ⟨_, ⟨-, v, rfl⟩, _, h, rfl⟩, rfl⟩, rfl⟩ := h
  rcases h with rfl | h
  · exact ⟨kw, n, v, none, rfl⟩
  · obtain ⟨b, rfl⟩ := h.exists_block (f := Signature.tree) (by simp [Reading])
    exact ⟨kw, n, v, some b, rfl⟩

theorem reading_instanceDecl (h : Covers (production .instanceDecl) kids) :
    ∃ kw ty body, (Decl.inst kw ty body).tree = .node .instanceDecl kids := by
  simp only [production, covers_mul_assoc, covers_char_mul, covers_opt, Reading] at h
  obtain ⟨_, ⟨-, kw, rfl⟩, _, ⟨_, ⟨-, ty, rfl⟩, _, h, rfl⟩, rfl⟩ := h
  rcases h with rfl | h
  · exact ⟨kw, ty, none, rfl⟩
  · obtain ⟨b, rfl⟩ := h.exists_block (f := Equation.tree) (by simp [Reading])
    exact ⟨kw, ty, some b, rfl⟩

theorem reading_funEquation (h : Covers (production .funEquation) kids) :
    ∃ e : Equation, e.tree = .node .funEquation kids := by
  simp only [production, covers_mul_assoc, covers_char_mul, Reading] at h
  obtain ⟨_, ⟨-, b, rfl⟩, _, h, rfl⟩ := h
  obtain ⟨us, vs, hu, hv, rfl⟩ := covers_mul.mp h
  obtain ⟨ps, rfl⟩ := hu.items.exists_atomicPats
  simp [Reading] at hv
  obtain ⟨eq, e, rfl⟩ := hv
  exact ⟨.mk b ps eq e, by simp⟩

theorem reading_patEquation (h : Covers (production .patEquation) kids) :
    ∃ e : PatEquation, e.tree = .node .patEquation kids := by
  simp [production, Reading] at h
  obtain ⟨lhs, eq, e, rfl⟩ := h
  exact ⟨.mk lhs eq e, by simp⟩

theorem reading_patLhs (h : Covers (production .patLhs) kids) :
    ∃ l : PatLhs, l.tree = .node .patLhs kids := by
  simp [production, Reading] at h
  rcases h with ⟨n, us, hu, rfl⟩ | ⟨l, p, r, rfl⟩
  · obtain ⟨ps, rfl⟩ := hu.items.exists_atomicPats
    exact ⟨.con n ps, rfl⟩
  · exact ⟨.paren l p r, rfl⟩

theorem reading_qualType (h : Covers (production .qualType) kids) :
    ∃ t : QualTy, t.tree = .node .qualType kids := by
  simp [production, Reading] at h
  rcases h with ⟨t, rfl⟩ | ⟨c, arrow, t, rfl⟩
  · exact ⟨.plain t, rfl⟩
  · exact ⟨.qualified c arrow t, rfl⟩

theorem reading_type (h : Covers (production .type) kids) :
    ∃ t : FullTy, t.tree = .node .type kids := by
  simp [production, Reading] at h
  rcases h with ⟨t, rfl⟩ | ⟨a, arrow, r, rfl⟩
  · exact ⟨.plain t, by simp⟩
  · exact ⟨.fn a arrow r, by simp⟩

theorem reading_btype (h : Covers (production .btype) kids) :
    ∃ t : AppliedTy, t.tree = .node .btype kids := by
  simp [production, Reading] at h
  rcases h with ⟨f, a, rfl⟩ | ⟨a, rfl⟩
  · exact ⟨.app f a, by simp⟩
  · exact ⟨.atom a, by simp⟩

theorem reading_atype (h : Covers (production .atype) kids) :
    ∃ t : AtomicTy, t.tree = .node .atype kids := by
  simp [production, Reading] at h
  rcases h with
    (((⟨n, rfl⟩ | ⟨n, rfl⟩) | ⟨l, t, r, rfl⟩) | ⟨l, t, r, rfl⟩) | ⟨l, t, c, us, h, rfl⟩
  · exact ⟨.con n, by simp⟩
  · exact ⟨.var n, by simp⟩
  · exact ⟨.list l t r, by simp⟩
  · exact ⟨.paren l t r, by simp⟩
  · simp only [sepBy, covers_mul_assoc, covers_char_mul, Reading] at h
    obtain ⟨_, ⟨-, u, rfl⟩, _, h, rfl⟩ := h
    obtain ⟨vs, ws, hv, hw, rfl⟩ := covers_mul.mp h
    obtain ⟨r, rfl⟩ : ∃ r : Tok .rparen, ws = [r.tree] := by simpa [Reading] using hw
    obtain ⟨rest, hr⟩ := hv.items.exists_tupleTail u r
    exact ⟨.tuple l t c rest, by simp [hr]⟩

theorem reading_expr (h : Covers (production .expr) kids) :
    ∃ e : FullExpr, e.tree = .node .expr kids := by
  simp [production, Reading] at h
  rcases h with ⟨e, rfl⟩ | ⟨e, rfl⟩
  · exact ⟨.operation e, by simp⟩
  · exact ⟨.keyword e, by simp⟩

theorem reading_kwExpr (h : Covers (production .kwExpr) kids) :
    ∃ e : KeywordExpr, e.tree = .node .kwExpr kids := by
  simp [production, Reading] at h
  rcases h with ((⟨bs, p, us, h, rfl⟩ | ⟨kw, binds, inKw, e, rfl⟩) |
    ⟨ifKw, c, thenKw, y, elseKw, n, rfl⟩) | ⟨kw, e, ofKw, us, h, rfl⟩
  · obtain ⟨vs, ws, hv, hw, rfl⟩ := covers_mul.mp h
    obtain ⟨ps, rfl⟩ := hv.items.exists_atomicPats
    simp [Reading] at hw
    obtain ⟨arrow, e, rfl⟩ := hw
    exact ⟨.lambda bs p ps arrow e, by simp⟩
  · exact ⟨.letIn kw binds inKw e, by simp⟩
  · exact ⟨.ifThenElse ifKw c thenKw y elseKw n, by simp⟩
  · obtain ⟨l, vs, ws, semi, r, hv, hw, rfl⟩ := h.exists_braces
    obtain ⟨a, rfl⟩ : ∃ a : CaseAlt, vs = [a.tree] := by simpa [Reading] using hv
    obtain ⟨rest, hr⟩ := hw.exists_altTail semi r
    exact ⟨.caseOf kw e ofKw l a rest, by simp [hr]⟩

theorem reading_infixExpr (h : Covers (production .infixExpr) kids) :
    ∃ e : Operation, Grammar.Tree.node .infixExpr e.trees = .node .infixExpr kids := by
  simp only [production, covers_mul_assoc, covers_char_mul, Reading] at h
  obtain ⟨_, ⟨-, e, rfl⟩, _, h, rfl⟩ := h
  obtain ⟨us, vs, hu, hv, rfl⟩ := covers_mul.mp h
  simp [Reading] at hv
  rcases hv with rfl | ⟨op, k, rfl⟩
  · obtain ⟨o, ho⟩ := hu.items.exists_operation e none
    exact ⟨o, by simp [ho]⟩
  · obtain ⟨o, ho⟩ := hu.items.exists_operation e (some (op, k))
    exact ⟨o, by simp [ho]⟩

theorem reading_letBinds (h : Covers (production .letBinds) kids) :
    ∃ b : LetBinds, b.tree = .node .letBinds kids := by
  simp [production, Reading] at h
  rcases h with ⟨b, rfl⟩ | h
  · exact ⟨.single b, by simp⟩
  · obtain ⟨l, vs, ws, semi, r, hv, hw, rfl⟩ := h.exists_braces
    obtain ⟨b, rfl⟩ : ∃ b : LetBind, vs = [b.tree] := by simpa [Reading] using hv
    obtain ⟨rest, hr⟩ := hw.exists_letTail semi r
    exact ⟨.block l b rest, by simp [hr]⟩

theorem reading_letBind (h : Covers (production .letBind) kids) :
    ∃ b : LetBind, b.tree = .node .letBind kids := by
  simp [production, Reading] at h
  rcases h with ⟨e, rfl⟩ | ⟨e, rfl⟩
  · exact ⟨.equation e, by simp⟩
  · exact ⟨.pattern e, by simp⟩

theorem reading_alt (h : Covers (production .alt) kids) :
    ∃ a : CaseAlt, a.tree = .node .alt kids := by
  simp [production, Reading] at h
  obtain ⟨p, arrow, e, rfl⟩ := h
  exact ⟨.mk p arrow e, by simp⟩

theorem reading_fexp (h : Covers (production .fexp) kids) :
    ∃ e : AppliedExpr, e.tree = .node .fexp kids := by
  simp [production, Reading] at h
  rcases h with ⟨f, a, rfl⟩ | ⟨a, rfl⟩
  · exact ⟨.app f a, by simp⟩
  · exact ⟨.atom a, by simp⟩

theorem reading_aexp (h : Covers (production .aexp) kids) :
    ∃ e : AtomicExpr, e.tree = .node .aexp kids := by
  simp [production, Reading] at h
  rcases h with (((((⟨n, rfl⟩ | ⟨n, rfl⟩) | ⟨l, n, r, rfl⟩) | ⟨t, rfl⟩) | ⟨t, rfl⟩) |
    ⟨l, e, r, rfl⟩) | ⟨l, _, ⟨r, rfl⟩ | h, rfl⟩
  · exact ⟨.var n, by simp⟩
  · exact ⟨.con n, by simp⟩
  · exact ⟨.op l n r, by simp⟩
  · exact ⟨.int t, by simp⟩
  · exact ⟨.string t, by simp⟩
  · exact ⟨.paren l e r, by simp⟩
  · exact ⟨.nil l r, by simp⟩
  · simp only [sepBy, covers_mul_assoc, covers_char_mul, Reading] at h
    obtain ⟨_, ⟨-, e, rfl⟩, _, h, rfl⟩ := h
    obtain ⟨vs, ws, hv, hw, rfl⟩ := covers_mul.mp h
    obtain ⟨r, rfl⟩ : ∃ r : Tok .rbracket, ws = [r.tree] := by simpa [Reading] using hw
    obtain ⟨rest, hr⟩ := hv.items.exists_listTail r
    exact ⟨.list l e rest, by simp [hr]⟩

theorem reading_pat (h : Covers (production .pat) kids) :
    ∃ p : FullPat, p.tree = .node .pat kids := by
  simp [production, Reading] at h
  rcases h with ⟨p, rfl⟩ | ⟨l, op, r, rfl⟩
  · exact ⟨.plain p, by simp⟩
  · exact ⟨.infixed l op r, by simp⟩

theorem reading_lpat (h : Covers (production .lpat) kids) :
    ∃ p : AppliedPat, p.tree = .node .lpat kids := by
  simp [production, Reading] at h
  rcases h with ⟨p, rfl⟩ | ⟨c, p, us, h, rfl⟩
  · exact ⟨.atom p, by simp⟩
  · obtain ⟨ps, rfl⟩ := h.items.exists_atomicPats
    exact ⟨.app c p ps, by simp⟩

theorem reading_apat (h : Covers (production .apat) kids) :
    ∃ p : AtomicPat, p.tree = .node .apat kids := by
  simp [production, Reading] at h
  rcases h with (((((⟨n, rfl⟩ | ⟨t, rfl⟩) | ⟨n, rfl⟩) | ⟨t, rfl⟩) | ⟨t, rfl⟩) | ⟨l, r, rfl⟩) |
    ⟨l, p, r, rfl⟩
  · exact ⟨.var n, by simp⟩
  · exact ⟨.wild t, by simp⟩
  · exact ⟨.con n, by simp⟩
  · exact ⟨.int t, by simp⟩
  · exact ⟨.string t, by simp⟩
  · exact ⟨.nil l r, by simp⟩
  · exact ⟨.paren l p r, by simp⟩

end Readings

/-- Of every derivation tree there is concrete syntax. -/
theorem reading_of_valid {T : Tree} (h : T.Valid) : Reading T T.symbol := by
  induction h with
  | leaf t => exact ⟨⟨t.text, t.region⟩, rfl⟩
  | @node A kids fits _ ih =>
    have h : Covers (production A) kids := ⟨fits, ih⟩
    cases A
    case module => exact reading_module h
    case topdecl => exact reading_topdecl h
    case moduleHeader | importDecl =>
      simp [production, Reading] at h
      obtain ⟨kw, n, rfl⟩ := h
      exact ⟨kw, n, rfl⟩
    case dataDecl => exact reading_dataDecl h
    case constr => exact reading_constr h
    case sigDecl => exact reading_sigDecl h
    case primDecl => exact reading_primDecl h
    case binder => exact reading_binder h
    case fixityDecl => exact reading_fixityDecl h
    case fixityKw => exact reading_fixityKw h
    case classDecl => exact reading_classDecl h
    case instanceDecl => exact reading_instanceDecl h
    case funEquation => exact reading_funEquation h
    case patEquation => exact reading_patEquation h
    case patLhs => exact reading_patLhs h
    case qualType => exact reading_qualType h
    case type => exact reading_type h
    case btype => exact reading_btype h
    case atype => exact reading_atype h
    case expr => exact reading_expr h
    case kwExpr => exact reading_kwExpr h
    case infixExpr => exact reading_infixExpr h
    case letBinds => exact reading_letBinds h
    case letBind => exact reading_letBind h
    case alt => exact reading_alt h
    case fexp => exact reading_fexp h
    case aexp => exact reading_aexp h
    case pat => exact reading_pat h
    case lpat => exact reading_lpat h
    case apat => exact reading_apat h

theorem derivation_iff {ts : List Token} {T : Tree} :
    Derivation ts T ↔ ∃ m : Module, m.yield = ts ∧ m.tree = T := by
  constructor
  · rintro ⟨hv, hs, rfl⟩
    have := reading_of_valid hv
    rw [hs] at this
    obtain ⟨m, rfl⟩ := this
    exact ⟨m, m.yield_tree.symm, rfl⟩
  · rintro ⟨m, rfl, rfl⟩
    exact m.derivation

theorem derivable_iff {ts : List Token} : Derivable ts ↔ ∃ m : Module, m.yield = ts := by
  simp only [Derivable, derivation_iff]
  constructor
  · rintro ⟨T, m, hm, -⟩
    exact ⟨m, hm⟩
  · rintro ⟨m, hm⟩
    exact ⟨_, m, hm, rfl⟩

theorem viable_iff {us : List Token} : Viable us ↔ (Lang.ofYield Module.yield).Viable us := by
  simp only [Viable, derivable_iff]
  exact exists_comm

/-- Reading gives the derivation of the tokens, and there is no other one. Where there is none, the
token that is reported is the first one that no derivable sequence has after the tokens before it;
the end of the text is reported if some derivable sequence goes on after all of them. -/
theorem parse_follows_grammar (ts : List Token) :
    (∀ T, Derivation ts T ↔
      ∃ m, Surface.conclude ts none (Module.parse ts) = .ok m ∧ m.tree = T) ∧
    match Surface.conclude ts none (Module.parse ts) with
    | .ok _ => ∃! T, Derivation ts T
    | .error (.unexpected t) =>
      ∃ us rest, ts = us ++ t :: rest ∧ Viable us ∧ ¬ Viable (us ++ [t])
    | .error (.unexpectedEnd _) => Viable ts ∧ ¬ Derivable ts
    | .error (.lexical ..) => False := by
  have accepted (T : Tree) : Derivation ts T ↔
      ∃ m, Surface.conclude ts none (Module.parse ts) = .ok m ∧ m.tree = T := by
    simp only [derivation_iff, ← Module.parse_eq_ok_iff]
    cases h : Module.parse ts with
    | ok m => simp [Surface.conclude]
    | error rest => cases rest <;> simp [Surface.conclude]
  refine ⟨accepted, ?_⟩
  cases h : Module.parse ts with
  | ok m =>
    refine ⟨m.tree, (accepted _).mpr ⟨m, by simp [h, Surface.conclude], rfl⟩, ?_⟩
    intro T hT
    obtain ⟨m', hm, rfl⟩ := (accepted T).mp hT
    rw [h] at hm
    cases hm
    rfl
  | error rest =>
    obtain ⟨us, rfl, viable, halts⟩ := Module.parse_eq_error h
    cases rest with
    | nil =>
      rw [List.append_nil] at h ⊢
      refine ⟨viable_iff.mpr viable, ?_⟩
      rintro ⟨T, hT⟩
      obtain ⟨m, hm, -⟩ := (accepted T).mp (by simpa using hT)
      simp [h, Surface.conclude] at hm
    | cons t rest =>
      exact ⟨us, rest, rfl, viable_iff.mpr viable, fun hv => halts t rfl (viable_iff.mp hv)⟩

end TypeLens.Concrete
