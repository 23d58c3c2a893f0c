import TypeLens.Check.Infer
import TypeLens.Proofs.Unification.Assignment

/-!
Typing rules for patterns and for expressions without local bindings. Class constraints are left
aside, and rows of operators have the tree that fixities give them.
-/

namespace TypeLens

def Scheme.Admits (s : Scheme) (t : Ty) : Prop :=
  ∃ ts : List Ty, ts.length = s.tvs.length ∧ (∀ u ∈ ts, u.Mono) ∧
    t = s.body.substVars (assign s.tvs ts)

def Globals.scheme? (g : Globals) (n : Name) : Option Scheme :=
  match g.entity? n with
  | some (.dataCon c) => some c.scheme
  | some (.ident i) => some i.scheme
  | _ => none

theorem Globals.entity?_of_scheme? {g : Globals} {n : Name} {s : Scheme} (h : g.scheme? n = some s) :
    (∃ c, g.entity? n = some (.dataCon c) ∧ c.scheme = s) ∨
      ∃ i, g.entity? n = some (.ident i) ∧ i.scheme = s := by
  unfold scheme? at h
  split at h
  · next c hc => exact .inl ⟨c, hc, Option.some.inj h⟩
  · next i hi => exact .inr ⟨i, hi, Option.some.inj h⟩
  · cases h

/-- Schemes are made of variables and constructors, what a constructor takes is in its type, and
names of values stand for something that has a type. -/
structure Globals.Closed (g : Globals) : Prop where
  mono {n : Name} {s : Scheme} : g.scheme? n = some s → s.body.Mono
  ground {n : Name} {s : Scheme} : g.scheme? n = some s → s.body.uvarOccurrences = []
  fields {n : Name} {c : DataCon} : g.entity? n = some (.dataCon c) →
    ∃ r, c.scheme.body = .fns c.argTypes r
  denotes {x : String} {n : Name} : Check.resolve g .value .variable x = .ok n →
    (g.scheme? n).isSome

namespace Typing

open Check (resolve resolveCon)
open Surface (Expr Pat Alt Operand OpRef)

/-- The types of local variables, innermost first. -/
abbrev Ctx := List (String × Ty)

-- Patterns

mutual

/-- A pattern matches values of a type, and its variables have the types that are listed. -/
inductive PatHasType (g : Globals) : Pat → Ty → Ctx → Prop
  | var {x : String} {l : Span} {t : Ty} : t.Mono → PatHasType g (.var x l) t [(x, t)]
  | wild {l : Span} {t : Ty} : t.Mono → PatHasType g (.wild l) t []
  | lit {v : Literal} {l : Span} : PatHasType g (.lit v l) v.ty []
  | par {p : Pat} {l : Span} {t : Ty} {Γ : Ctx} :
      PatHasType g p t Γ → PatHasType g (.par p l) t Γ
  | con {x : String} {ps : List Pat} {l : Span} {c : DataCon} {r : Ty} {ts : List Ty} {Γ : Ctx} :
      resolveCon g x = .ok c → c.argTypes.length = ps.length → c.scheme.body = .fns c.argTypes r →
      ts.length = c.scheme.tvs.length → (∀ u ∈ ts, u.Mono) →
      PatsHaveType g ps (c.argTypes.map (·.substVars (assign c.scheme.tvs ts))) Γ →
      PatHasType g (.con x ps l) (r.substVars (assign c.scheme.tvs ts)) Γ

inductive PatsHaveType (g : Globals) : List Pat → List Ty → Ctx → Prop
  | nil : PatsHaveType g [] [] []
  | cons {p : Pat} {ps : List Pat} {t : Ty} {ts : List Ty} {Γ Δ : Ctx} :
      PatHasType g p t Γ → PatsHaveType g ps ts Δ → PatsHaveType g (p :: ps) (t :: ts) (Γ ++ Δ)

end

-- Names

inductive VarHasType (g : Globals) (Γ : Ctx) (x : String) (t : Ty) : Prop
  | bound : Γ.lookup x = some t → VarHasType g Γ x t
  | top {n : Name} {s : Scheme} : Γ.lookup x = none → resolve g .value .variable x = .ok n →
      g.scheme? n = some s → s.Admits t → VarHasType g Γ x t

def ConHasType (g : Globals) (x : String) (t : Ty) : Prop :=
  ∃ c, resolveCon g x = .ok c ∧ c.scheme.Admits t

def OpHasType (g : Globals) (Γ : Ctx) (op : OpRef) (t : Ty) : Prop :=
  if isConOperator op.name then ConHasType g op.name t else VarHasType g Γ op.name t

/-- Operators that are local variables have no fixity of their own. -/
def fixityIn (g : Globals) (Γ : Ctx) (op : OpRef) : Fixity :=
  if !isConOperator op.name && (Γ.lookup op.name).isSome then .default
  else
    match resolve g .value .variable op.name with
    | .ok n => g.fixityOf n
    | .error _ => .default

def operand : Operand → OpRef × Expr
  | .mk op e => (op, e)

-- Expressions

mutual

inductive HasType (g : Globals) : Ctx → Expr → Ty → Prop
  | var {Γ : Ctx} {x : String} {l : Span} {t : Ty} :
      VarHasType g Γ x t → HasType g Γ (.var x l) t
  | con {Γ : Ctx} {x : String} {l : Span} {t : Ty} : ConHasType g x t → HasType g Γ (.con x l) t
  | lit {Γ : Ctx} {v : Literal} {l : Span} : HasType g Γ (.lit v l) v.ty
  | app {Γ : Ctx} {f a : Expr} {l : Span} {p t : Ty} :
      HasType g Γ f (.fn p t) → HasType g Γ a p → HasType g Γ (.app f a l) t
  | row {Γ : Ctx} {e : Expr} {es : List Operand} {l : Span} {tree : OpTree OpRef Expr} {t : Ty} :
      OpTree.resolve (fixityIn g Γ) e (es.map operand) = ⟨tree, []⟩ → TreeHasType g Γ tree t →
      HasType g Γ (.row e es l) t
  | lambda {Γ Δ : Ctx} {ps : List Pat} {ts : List Ty} {e : Expr} {l : Span} {t : Ty} :
      PatsHaveType g ps ts Δ → (Δ.map Prod.fst).Nodup → HasType g (Δ ++ Γ) e t →
      HasType g Γ (.lambda ps e l) (.fns ts t)
  | ifThenElse {Γ : Ctx} {c y n : Expr} {l : Span} {t : Ty} :
      HasType g Γ c .bool → HasType g Γ y t → HasType g Γ n t →
      HasType g Γ (.ifThenElse c y n l) t
  | caseOf {Γ : Ctx} {s : Expr} {as : List Alt} {l : Span} {p t : Ty} :
      HasType g Γ s p → t.Mono → AltsHaveType g Γ p t as → HasType g Γ (.caseOf s as l) t
  | list {Γ : Ctx} {es : List Expr} {l : Span} {t : Ty} :
      t.Mono → ElemsHaveType g Γ t es → HasType g Γ (.list es l) (.list t)
  | par {Γ : Ctx} {e : Expr} {l : Span} {t : Ty} : HasType g Γ e t → HasType g Γ (.par e l) t

inductive TreeHasType (g : Globals) : Ctx → OpTree OpRef Expr → Ty → Prop
  | leaf {Γ : Ctx} {e : Expr} {t : Ty} : HasType g Γ e t → TreeHasType g Γ (.leaf e) t
  | node {Γ : Ctx} {x y : OpTree OpRef Expr} {op : OpRef} {p q t : Ty} :
      TreeHasType g Γ x p → OpHasType g Γ op (.fn p (.fn q t)) → TreeHasType g Γ y q →
      TreeHasType g Γ (.node x op y) t

/-- All alternatives match values of one type and have results of another. -/
inductive AltsHaveType (g : Globals) : Ctx → Ty → Ty → List Alt → Prop
  | nil {Γ : Ctx} {p t : Ty} : AltsHaveType g Γ p t []
  | cons {Γ Δ : Ctx} {p t : Ty} {pat : Pat} {e : Expr} {l : Span} {as : List Alt} :
      PatHasType g pat p Δ → (Δ.map Prod.fst).Nodup → HasType g (Δ ++ Γ) e t →
      AltsHaveType g Γ p t as → AltsHaveType g Γ p t (.mk pat e l :: as)

inductive ElemsHaveType (g : Globals) : Ctx → Ty → List Expr → Prop
  | nil {Γ : Ctx} {t : Ty} : ElemsHaveType g Γ t []
  | cons {Γ : Ctx} {t : Ty} {e : Expr} {es : List Expr} :
      HasType g Γ e t → ElemsHaveType g Γ t es → ElemsHaveType g Γ t (e :: es)

end

mutual

/-- There are no local bindings. -/
def LetFree : Expr → Prop
  | .var _ _ => True
  | .con _ _ => True
  | .lit _ _ => True
  | .app f a _ => LetFree f ∧ LetFree a
  | .row e es _ => LetFree e ∧ OperandsLetFree es
  | .lambda _ e _ => LetFree e
  | .letIn _ _ _ => False
  | .ifThenElse c y n _ => LetFree c ∧ LetFree y ∧ LetFree n
  | .caseOf s as _ => LetFree s ∧ AltsLetFree as
  | .list es _ => ElemsLetFree es
  | .par e _ => LetFree e

def OperandsLetFree : List Operand → Prop
  | [] => True
  | .mk _ e :: es => LetFree e ∧ OperandsLetFree es

def AltsLetFree : List Alt → Prop
  | [] => True
  | .mk _ e _ :: as => LetFree e ∧ AltsLetFree as

def ElemsLetFree : List Expr → Prop
  | [] => True
  | e :: es => LetFree e ∧ ElemsLetFree es

end

-- Types of rules are plain

theorem admits_mono {s : Scheme} (hs : s.body.Mono) {t : Ty} (h : s.Admits t) : t.Mono := by
  obtain ⟨ts, -, hts, rfl⟩ := h
  exact hs.at s.tvs hts

theorem resolveCon_ok {g : Globals} {x : String} {c : DataCon} (h : resolveCon g x = .ok c) :
    ∃ n, resolve g .value .dataConstructor x = .ok n ∧ g.entity? n = some (.dataCon c) := by
  unfold resolveCon at h
  cases hn : resolve g .value .dataConstructor x with
  | error p => simp [hn, bind, Except.bind] at h
  | ok n =>
    refine ⟨n, rfl, ?_⟩
    simp only [hn, bind, Except.bind] at h
    split at h
    · next c' hc =>
      obtain rfl : c' = c := by simpa [pure, Except.pure] using h
      exact hc
    · cases h

theorem closed_con {g : Globals} (hg : g.Closed) {x : String} {c : DataCon}
    (h : resolveCon g x = .ok c) :
    ∃ r, c.scheme.body = .fns c.argTypes r ∧ (∀ t ∈ c.argTypes, t.Mono) ∧ r.Mono ∧
      (∀ t ∈ c.argTypes, t.uvarOccurrences = []) ∧ r.uvarOccurrences = [] := by
  obtain ⟨n, -, hc⟩ := resolveCon_ok h
  obtain ⟨r, hr⟩ := hg.fields hc
  have hs : g.scheme? n = some c.scheme := by simp [Globals.scheme?, hc]
  have hmono := hg.mono hs
  have hground := hg.ground hs
  rw [hr, Ty.mono_fns] at hmono
  rw [hr, Ty.uvarOccurrences_fns, List.append_eq_nil_iff, List.flatMap_eq_nil_iff] at hground
  exact ⟨r, hr, hmono.1, hmono.2, hground.1, hground.2⟩

mutual

theorem PatHasType.mono {g : Globals} (hg : g.Closed) {p : Pat} {t : Ty} {Γ : Ctx}
    (h : PatHasType g p t Γ) : t.Mono ∧ ∀ q ∈ Γ, q.2.Mono := by
  cases h with
  | var ht => exact ⟨ht, List.forall_mem_singleton.2 ht⟩
  | wild ht => exact ⟨ht, by simp⟩
  | lit => exact ⟨Ty.mono_literal _, by simp⟩
  | par h => exact h.mono hg
  | @con _ _ _ c r ts _ hc hlen hr _ hts hps =>
    obtain ⟨r', hr', -, hres, -, -⟩ := closed_con hg hc
    have hrr : r' = r := by
      have hsplit := Ty.splitFns_fns c.argTypes r'
      rw [← hr', hr, Ty.splitFns_fns] at hsplit
      exact (congrArg Prod.snd hsplit).symm
    exact ⟨hrr ▸ hres.at _ hts, (hps.mono hg).2⟩

theorem PatsHaveType.mono {g : Globals} (hg : g.Closed) {ps : List Pat} {ts : List Ty} {Γ : Ctx}
    (h : PatsHaveType g ps ts Γ) : (∀ t ∈ ts, t.Mono) ∧ ∀ q ∈ Γ, q.2.Mono := by
  cases h with
  | nil => simp
  | cons hp hps =>
    obtain ⟨ht, hΓ⟩ := hp.mono hg
    obtain ⟨hts, hΔ⟩ := hps.mono hg
    exact ⟨List.forall_mem_cons.2 ⟨ht, hts⟩, List.forall_mem_append.2 ⟨hΓ, hΔ⟩⟩

end

theorem PatsHaveType.length {g : Globals} {ps : List Pat} {ts : List Ty} {Γ : Ctx}
    (h : PatsHaveType g ps ts Γ) : ts.length = ps.length := by
  induction ps generalizing ts Γ with
  | nil =>
    cases h
    rfl
  | cons p ps ih =>
    cases h with
    | cons _ hps => rw [List.length_cons, List.length_cons, ih hps]

section

variable {g : Globals} (hg : g.Closed)
include hg

theorem VarHasType.mono {Γ : Ctx} (hΓ : ∀ q ∈ Γ, q.2.Mono) {x : String} {t : Ty}
    (h : VarHasType g Γ x t) : t.Mono := by
  cases h with
  | bound h =>
    obtain ⟨l₁, l₂, hl, -⟩ := List.lookup_eq_some_iff.1 h
    exact hΓ (x, t) (by rw [hl]; simp)
  | top _ _ hs h => exact admits_mono (hg.mono hs) h

theorem ConHasType.mono {x : String} {t : Ty} (h : ConHasType g x t) : t.Mono := by
  obtain ⟨c, hc, h⟩ := h
  obtain ⟨n, -, he⟩ := resolveCon_ok hc
  exact admits_mono (hg.mono (n := n) (by simp [Globals.scheme?, he])) h

theorem OpHasType.mono {Γ : Ctx} (hΓ : ∀ q ∈ Γ, q.2.Mono) {op : OpRef} {t : Ty}
    (h : OpHasType g Γ op t) : t.Mono := by
  unfold OpHasType at h
  split at h
  · exact ConHasType.mono hg h
  · exact VarHasType.mono hg hΓ h

end

mutual

theorem HasType.mono {g : Globals} (hg : g.Closed) : ∀ {Γ : Ctx} {e : Expr} {t : Ty},
    (∀ q ∈ Γ, q.2.Mono) → HasType g Γ e t → t.Mono
  | _, _, _, hΓ, .var h => h.mono hg hΓ
  | _, _, _, _, .con h => h.mono hg
  | _, _, _, _, .lit => Ty.mono_literal _
  | _, _, _, hΓ, .app hf _ => (hf.mono hg hΓ).2
  | _, _, _, hΓ, .row _ h => h.mono hg hΓ
  | _, _, _, hΓ, .lambda hps _ he =>
    Ty.mono_fns.2 ⟨(hps.mono hg).1, he.mono hg (List.forall_mem_append.2 ⟨(hps.mono hg).2, hΓ⟩)⟩
  | _, _, _, hΓ, .ifThenElse _ hy _ => hy.mono hg hΓ
  | _, _, _, _, .caseOf _ ht _ => ht
  | _, _, _, _, .list ht _ => ⟨trivial, ht⟩
  | _, _, _, hΓ, .par h => h.mono hg hΓ

theorem TreeHasType.mono {g : Globals} (hg : g.Closed) : ∀ {Γ : Ctx} {tree : OpTree OpRef Expr}
    {t : Ty}, (∀ q ∈ Γ, q.2.Mono) → TreeHasType g Γ tree t → t.Mono
  | _, _, _, hΓ, .leaf h => h.mono hg hΓ
  | _, _, _, hΓ, .node _ hop _ => (hop.mono hg hΓ).2.2

end

end Typing

end TypeLens
