import TypeLens.Proofs.Lex.Words
import TypeLens.Proofs.Surface.Spans
import TypeLens.Render.Type

/-!
Rendered types read back. The types that a signature can spell are built from type variables, lists,
functions and constructors with any number of arguments. They are rendered with parentheses where the
grammar needs them, and so the text of a type at a place is that of a tree that may stand there.
-/

namespace TypeLens

open Concrete Surface

/-- A type variable. -/
structure Varid where
  text : String
  isVarid : Lex.isVarid text = true

/-- A type constructor or a class, from whatever module, with a name that can be written. -/
structure Conid where
  name : Name
  isConid : Lex.isConid name.occ = true

mutual

/-- The types that a signature can spell. -/
inductive SourceTy
  | var (v : Varid)
  | list (elem : SourceTy)
  | fn (arg res : SourceTy)
  | applied (t : SourceApp)

/-- A constructor with its arguments. -/
inductive SourceApp
  | con (c : Conid)
  | app (fn : SourceApp) (arg : SourceTy)

end

mutual

def SourceTy.ty : SourceTy → Ty
  | .var v => .var v.text
  | .list t => .list t.ty
  | .fn t u => .fn t.ty u.ty
  | .applied t => t.ty

def SourceApp.ty : SourceApp → Ty
  | .con c => .con c.name
  | .app f a => .app f.ty a.ty

end

def SourceApp.head : SourceApp → String
  | .con c => c.name.occ
  | .app f _ => f.head

mutual

/-- The type expression that stands for a type, without spans. -/
def SourceTy.expr : SourceTy → TypeExpr
  | .var v => .var v.text .unknown
  | .list t => .con "[]" [t.expr] .unknown
  | .fn t u => .fn t.expr u.expr .unknown
  | .applied t => .con t.head t.args .unknown

def SourceApp.args : SourceApp → List TypeExpr
  | .con _ => []
  | .app f a => f.args ++ [a.expr]

end

-- How they are rendered

namespace Conid

variable (c : Conid)

theorem isLetter_of_isUpper {c : Char} (h : Lex.isUpper c = true) : Text.isLetter c = true := by
  rw [Lex.isUpper, Bool.and_eq_true, decide_eq_true_eq, decide_eq_true_eq] at h
  have h₁ : 0x41 ≤ c.toNat := h.1
  have h₂ : c.toNat ≤ 0x5a := h.2
  have hfirst : Text.letterRanges.find? (c.toNat ≤ ·.2) = some (0x41, 0x5a) :=
    List.find?_cons_of_pos (by simpa using h₂)
  rw [Text.isLetter, hfirst]
  simpa using h₁

theorem isOperator_name : c.name.isOperator = false := by
  obtain ⟨d, word, hcons, hupper, -⟩ := Lex.exists_cons_of_isConid c.isConid
  simp [Name.isOperator, hcons, isLetter_of_isUpper hupper]

theorem name_ne {n : Name} (hn : Lex.isConid n.occ = false) : c.name ≠ n := by
  rintro rfl
  rw [c.isConid] at hn
  cases hn

theorem renderPrefixed_name : c.name.renderPrefixed .never = c.name.occ := by
  rw [Name.renderPrefixed, c.isOperator_name]
  rfl

end Conid

mutual

theorem SourceTy.isPred_ty : ∀ t : SourceTy, t.ty.isPred = false
  | .var _ | .list _ | .fn _ _ => rfl
  | .applied t => t.isPred_ty

theorem SourceApp.isPred_ty : ∀ t : SourceApp, t.ty.isPred = false
  | .con _ | .app _ _ => rfl

end

theorem renderAt_var (place : Place) (v : String) :
    (Ty.var v).renderAt .never place [] = v := by
  simp [Ty.renderAt, renderContext]

theorem renderAt_list (place : Place) (t : Ty) :
    (Ty.list t).renderAt .never place [] = "[" ++ t.renderAt .never .top [] ++ "]" := by
  simp [Ty.list, Ty.renderAt, renderContext]

theorem renderAt_fn (place : Place) {t : Ty} (ht : t.isPred = false) (u : Ty) :
    (Ty.fn t u).renderAt .never place [] = parens (place ≠ .top)
      (t.renderAt .never .fnArg [] ++ " -> " ++ u.renderAt .never .top []) := by
  simp [Ty.fn, Ty.renderAt, renderContext, ht]

theorem renderAt_con (place : Place) (c : Conid) :
    (Ty.con c.name).renderAt .never place [] = c.name.occ := by
  simp [Ty.renderAt, renderContext, c.renderPrefixed_name]

theorem SourceApp.renderAt_app (place : Place) (f : SourceApp) (a : SourceTy) :
    (SourceApp.app f a).ty.renderAt .never place [] =
      parens (place = .conArg) ((SourceApp.app f a).ty.renderSpine .never) := by
  -- rendering looks at three nodes, for lists and functions
  match f with
  | .con c =>
    have hc : c.name ≠ Builtin.listTyCon := c.name_ne rfl
    simp [SourceApp.ty, Ty.renderAt, Ty.renderSpine, renderContext, hc]
  | .app (.con c) b =>
    have hc : c.name ≠ Builtin.funTyCon := c.name_ne rfl
    simp [SourceApp.ty, Ty.renderAt, Ty.renderSpine, renderContext, hc]
  | .app (.app f b) d => simp [SourceApp.ty, Ty.renderAt, Ty.renderSpine, renderContext]

-- What is read

namespace Surface

/-- A tree that `text` spells is built, and but for spans the outcome is `c`. -/
def ReadsAs {α β : Type} (yield : α → List Token) (build : α → Build β)
    (mapSpans : (Span → Span) → β → β) (text : String) (c : β) : Prop :=
  ∃ a b, Lex.Spells text (yield a) ∧ build a = .ok b ∧ mapSpans (fun _ => .unknown) b = c

section Types

variable (file : Option String)

abbrev ReadsAtomic := ReadsAs AtomicTy.yield (buildAtomicTy file) TypeExpr.mapSpans

abbrev ReadsApplied := ReadsAs AppliedTy.yield (buildAppliedTy file) TypeExpr.mapSpans

abbrev ReadsFull := ReadsAs FullTy.yield (buildFullTy file) TypeExpr.mapSpans

variable {file} {s s' : String} {e e' : TypeExpr}

theorem ReadsAtomic.var (v : Varid) : ReadsAtomic file v.text (.var v.text .unknown) :=
  ⟨.var (.bare .varid v.text), _, .varid v.isVarid, rfl, rfl⟩

theorem ReadsAtomic.con (c : Conid) : ReadsAtomic file c.name.occ (.con c.name.occ [] .unknown) :=
  ⟨.con (.bare .conid c.name.occ), _, .conid c.isConid, rfl, rfl⟩

theorem ReadsFull.list (h : ReadsFull file s e) :
    ReadsAtomic file ("[" ++ s ++ "]") (.con "[]" [e] .unknown) := by
  obtain ⟨t, x, ht, hx, rfl⟩ := h
  let list : AtomicTy := .list (.bare .lbracket "[") t (.bare .rbracket "]")
  have hbuild : buildAtomicTy file list = .ok (.con "[]" [x] (list.region.span file)) := by
    rw [buildAtomicTy, hx]
    rfl
  exact ⟨list, _, (ht.opened (l := '[') rfl rfl ⟨nofun, nofun⟩).closed (r := ']') rfl rfl
    ⟨nofun, nofun⟩, hbuild, rfl⟩

theorem ReadsFull.paren (h : ReadsFull file s e) : ReadsAtomic file ("(" ++ s ++ ")") e := by
  obtain ⟨t, x, ht, hx, rfl⟩ := h
  refine ⟨.paren (.bare .lparen "(") t (.bare .rparen ")"), x, ?_, hx, rfl⟩
  exact (ht.opened (l := '(') rfl rfl ⟨nofun, nofun⟩).closed (r := ')') rfl rfl ⟨nofun, nofun⟩

theorem ReadsAtomic.applied (h : ReadsAtomic file s e) : ReadsApplied file s e := by
  obtain ⟨t, x, ht, hx, rfl⟩ := h
  exact ⟨.atom t, x, ht, hx, rfl⟩

theorem ReadsApplied.app {c : String} {args : List TypeExpr}
    (hf : ReadsApplied file s (.con c args .unknown)) (ha : ReadsAtomic file s' e) :
    ReadsApplied file (s ++ " " ++ s') (.con c (args ++ [e]) .unknown) := by
  obtain ⟨f, x, hft, hx, hfe⟩ := hf
  obtain ⟨a, y, hat, hy, rfl⟩ := ha
  cases x with
  | var | fn => simp at hfe
  | con n xs loc =>
    simp only [TypeExpr.mapSpans, TypeExpr.con.injEq] at hfe
    obtain ⟨rfl, rfl, -⟩ := hfe
    have hbuild : buildAppliedTy file (.app f a) =
        .ok (.con n (xs ++ [y]) ((AppliedTy.app f a).region.span file)) := by
      rw [buildAppliedTy, hx]
      change (buildAtomicTy file a >>= fun arg => pure (TypeExpr.con n (xs ++ [arg]) _)) = _
      rw [hy]
      rfl
    refine ⟨.app f a, _, ?_, hbuild, by simp [TypeExpr.mapSpansAll_eq]⟩
    simpa [AppliedTy.yield] using hft.between .blank hat

theorem ReadsApplied.full (h : ReadsApplied file s e) : ReadsFull file s e := by
  obtain ⟨t, x, ht, hx, rfl⟩ := h
  exact ⟨.plain t, x, ht, hx, rfl⟩

theorem ReadsApplied.fn (ht : ReadsApplied file s e) (hu : ReadsFull file s' e') :
    ReadsFull file (s ++ " -> " ++ s') (.fn e e' .unknown) := by
  obtain ⟨t, x, htt, hx, rfl⟩ := ht
  obtain ⟨u, y, hut, hy, rfl⟩ := hu
  let fn : FullTy := .fn t (.bare .arrow "->") u
  have hbuild : buildFullTy file fn = .ok (.fn x y (fn.region.span file)) := by
    rw [buildFullTy, hx, hy]
    rfl
  refine ⟨fn, _, ?_, hbuild, rfl⟩
  simpa [fn, FullTy.yield] using htt.between .arrow hut

end Types

end Surface

/-- At every place the text of the type is that of a tree that may stand there. -/
structure SourceTy.ReadsBack (file : Option String) (t : SourceTy) : Prop where
  top : ReadsFull file (t.ty.renderAt .never .top []) t.expr
  fnArg : ReadsApplied file (t.ty.renderAt .never .fnArg []) t.expr
  conArg : ReadsAtomic file (t.ty.renderAt .never .conArg []) t.expr

theorem SourceTy.ReadsBack.of_atomic {file : Option String} {t : SourceTy} {s : String}
    (hs : ∀ place, t.ty.renderAt .never place [] = s) (h : ReadsAtomic file s t.expr) :
    t.ReadsBack file := by
  refine ⟨?_, ?_, ?_⟩ <;> rw [hs]
  · exact h.applied.full
  · exact h.applied
  · exact h

mutual

theorem SourceTy.readsBack (file : Option String) : ∀ t : SourceTy, t.ReadsBack file
  | .var v => .of_atomic (fun place => renderAt_var place v.text) (.var v)
  | .list t => .of_atomic (fun place => renderAt_list place t.ty) (t.readsBack file).top.list
  | .fn t u => by
    have hfn := (t.readsBack file).fnArg.fn (u.readsBack file).top
    have hat (place : Place) := renderAt_fn place t.isPred_ty u.ty
    refine ⟨?_, ?_, ?_⟩ <;> rw [SourceTy.ty, hat]
    · exact hfn
    · exact hfn.paren.applied
    · exact hfn.paren
  | .applied (.con c) => .of_atomic (fun place => renderAt_con place c) (.con c)
  | .applied (.app f a) => by
    have happ := (f.readsBack file).app (a.readsBack file).conArg
    have hat (place : Place) := f.renderAt_app place a
    refine ⟨?_, ?_, ?_⟩ <;> rw [SourceTy.ty, hat]
    · exact happ.full
    · exact happ
    · exact happ.full.paren

theorem SourceApp.readsBack (file : Option String) : ∀ t : SourceApp,
    ReadsApplied file (t.ty.renderSpine .never) (.con t.head t.args .unknown)
  | .con c => by
    have hspine : (SourceApp.con c).ty.renderSpine .never = c.name.occ := c.renderPrefixed_name
    rw [hspine]
    exact (ReadsAtomic.con c).applied
  | .app f a => (f.readsBack file).app (a.readsBack file).conArg

end

end TypeLens
