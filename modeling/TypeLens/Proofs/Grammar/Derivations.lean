import Mathlib.Computability.RegularExpressions
import TypeLens.Concrete.Module

/-!
The grammar of modules as productions, whose right sides are regular expressions of symbols, and its
derivation trees.
-/

namespace TypeLens.Grammar

inductive Nonterminal
  | module | topdecl | moduleHeader | importDecl | dataDecl | constr | sigDecl | primDecl | binder
  | fixityDecl | fixityKw | classDecl | instanceDecl | funEquation | patEquation | patLhs
  | qualType | type | btype | atype
  | expr | kwExpr | infixExpr | letBinds | letBind | alt | fexp | aexp
  | pat | lpat | apat
deriving DecidableEq

inductive Symbol
  | tok (k : Terminal)
  | rule (A : Nonterminal)
deriving DecidableEq

abbrev Form := RegularExpression Symbol

abbrev tok (k : Terminal) : Form := .char (.tok k)

abbrev rule (A : Nonterminal) : Form := .char (.rule A)

def opt (P : Form) : Form := 1 + P

def many (P : Form) : Form := .star P

/-- One `P` or more, with a separator between two. -/
def sepBy (sep : Terminal) (P : Form) : Form := P * many (tok sep * P)

/-- What `where` introduces. -/
def whereBlock (P : Form) : Form :=
  tok .kwWhere * tok .blockOpen * opt (sepBy .itemSep P) * tok .blockClose

def braces (P : Form) : Form := tok .lbrace * sepBy .semi P * opt (tok .semi) * tok .rbrace

def production : Nonterminal → Form
  | .module => opt (sepBy .itemSep (rule .topdecl))
  | .topdecl => rule .moduleHeader + rule .importDecl + rule .dataDecl + rule .sigDecl
      + rule .primDecl + rule .fixityDecl + rule .classDecl + rule .instanceDecl
      + rule .funEquation + rule .patEquation
  | .moduleHeader => tok .kwModule * tok .conid
  | .importDecl => tok .kwImport * tok .conid
  | .dataDecl => tok .kwData * tok .conid * many (tok .varid)
      * opt (tok .equals * sepBy .bar (rule .constr))
  | .constr => tok .conid * many (rule .atype)
  | .sigDecl => sepBy .comma (rule .binder) * tok .doubleColon * rule .qualType
  | .primDecl => tok .kwPrimitive * rule .sigDecl
  | .binder => tok .varid + tok .lparen * tok .operator * tok .rparen
  | .fixityDecl => rule .fixityKw * tok .int * sepBy .comma (tok .operator)
  | .fixityKw => tok .kwInfixl + tok .kwInfixr + tok .kwInfix
  | .classDecl => tok .kwClass * tok .conid * tok .varid * opt (whereBlock (rule .sigDecl))
  | .instanceDecl => tok .kwInstance * rule .qualType * opt (whereBlock (rule .funEquation))
  | .funEquation => rule .binder * many (rule .apat) * tok .equals * rule .expr
  | .patEquation => rule .patLhs * tok .equals * rule .expr
  | .patLhs => tok .conid * many (rule .apat) + tok .lparen * rule .pat * tok .rparen
  | .qualType => opt (rule .btype * tok .fatArrow) * rule .type
  | .type => rule .btype + rule .btype * tok .arrow * rule .type
  | .btype => rule .btype * rule .atype + rule .atype
  | .atype => tok .conid + tok .varid + tok .lbracket * rule .type * tok .rbracket
      + tok .lparen * rule .type * tok .rparen
      + tok .lparen * rule .type * tok .comma * sepBy .comma (rule .type) * tok .rparen
  | .expr => rule .infixExpr + rule .kwExpr
  | .kwExpr => tok .backslash * rule .apat * many (rule .apat) * tok .arrow * rule .expr
      + tok .kwLet * rule .letBinds * tok .kwIn * rule .expr
      + tok .kwIf * rule .expr * tok .kwThen * rule .expr * tok .kwElse * rule .expr
      + tok .kwCase * rule .expr * tok .kwOf * braces (rule .alt)
  | .infixExpr => rule .fexp * many (tok .operator * rule .fexp)
      * opt (tok .operator * rule .kwExpr)
  | .letBinds => rule .letBind + braces (rule .letBind)
  | .letBind => rule .funEquation + rule .patEquation
  | .alt => rule .pat * tok .arrow * rule .expr
  | .fexp => rule .fexp * rule .aexp + rule .aexp
  | .aexp => tok .varid + tok .conid + tok .lparen * tok .operator * tok .rparen + tok .int
      + tok .string + tok .lparen * rule .expr * tok .rparen
      + tok .lbracket * opt (sepBy .comma (rule .expr)) * tok .rbracket
  | .pat => rule .lpat + rule .lpat * tok .operator * rule .pat
  | .lpat => rule .apat + tok .conid * rule .apat * many (rule .apat)
  | .apat => tok .varid + tok .wildcard + tok .conid + tok .int + tok .string
      + tok .lbracket * tok .rbracket + tok .lparen * rule .pat * tok .rparen

inductive Tree
  | leaf (t : Token)
  | node (A : Nonterminal) (kids : List Tree)

namespace Tree

def symbol : Tree → Symbol
  | .leaf t => .tok t.kind
  | .node A _ => .rule A

@[simp]
theorem symbol_leaf (t : Token) : (leaf t).symbol = .tok t.kind := rfl

@[simp]
theorem symbol_node (A : Nonterminal) (kids : List Tree) : (node A kids).symbol = .rule A := rfl

mutual

@[simp]
def yield : Tree → List Token
  | .leaf t => [t]
  | .node _ kids => yields kids

@[simp]
def yields : List Tree → List Token
  | [] => []
  | T :: Ts => T.yield ++ yields Ts

end

/-- The roots of the trees are in order for `P`. -/
def Fits (P : Form) (Ts : List Tree) : Prop := Ts.map symbol ∈ P.matches'

/-- Below every nonterminal stands a right side of its production. -/
inductive Valid : Tree → Prop
  | leaf (t : Token) : Valid (.leaf t)
  | node {A : Nonterminal} {kids : List Tree} :
    Fits (production A) kids → (∀ T ∈ kids, Valid T) → Valid (.node A kids)

end Tree

/-- A derivation of `ts` from the start of the grammar. -/
structure Derivation (ts : List Token) (T : Tree) : Prop where
  valid : T.Valid
  symbol : T.symbol = .rule .module
  yield : T.yield = ts

def Derivable (ts : List Token) : Prop := ∃ T, Derivation ts T

/-- Some derivable sequence begins with these tokens. -/
def Viable (us : List Token) : Prop := ∃ vs, Derivable (us ++ vs)

namespace Tree

@[simp]
theorem yields_append (Ts Us : List Tree) : yields (Ts ++ Us) = yields Ts ++ yields Us := by
  induction Ts with
  | nil => rfl
  | cons T Ts ih => simp [ih]

/-! ### Roots in order -/

section Fits

variable {P Q R : Form} {Ts : List Tree} {s : Symbol}

theorem fits_one : Fits 1 Ts ↔ Ts = [] := by
  simp [Fits]

@[simp]
theorem fits_add : Fits (P + Q) Ts ↔ Fits P Ts ∨ Fits Q Ts := by
  simp [Fits, Language.mem_add]

theorem fits_mul : Fits (P * Q) Ts ↔ ∃ us vs, Fits P us ∧ Fits Q vs ∧ Ts = us ++ vs := by
  simp only [Fits, RegularExpression.matches'_mul, Language.mem_mul]
  constructor
  · rintro ⟨xs, hx, ys, hy, h⟩
    obtain ⟨us, vs, rfl, rfl, rfl⟩ := List.map_eq_append_iff.mp h.symm
    exact ⟨us, vs, hx, hy, rfl⟩
  · rintro ⟨us, vs, hu, hv, rfl⟩
    exact ⟨_, hu, _, hv, by simp⟩

theorem Fits.append {us vs : List Tree} (hu : Fits P us) (hv : Fits Q vs) :
    Fits (P * Q) (us ++ vs) :=
  fits_mul.mpr ⟨us, vs, hu, hv, rfl⟩

@[simp]
theorem fits_mul_assoc : Fits (P * Q * R) Ts ↔ Fits (P * (Q * R)) Ts := by
  simp only [Fits, RegularExpression.matches'_mul, mul_assoc]

@[simp]
theorem fits_char : Fits (.char s) Ts ↔ ∃ T, T.symbol = s ∧ Ts = [T] := by
  simp only [Fits, RegularExpression.matches'_char]
  constructor
  · intro h
    obtain ⟨T, rfl, hT⟩ := List.map_eq_singleton_iff.mp h
    exact ⟨T, hT, rfl⟩
  · rintro ⟨T, rfl, rfl⟩
    rfl

theorem fits_char_mul :
    Fits (.char s * Q) Ts ↔ ∃ T, T.symbol = s ∧ ∃ Us, Fits Q Us ∧ Ts = T :: Us := by
  rw [fits_mul]
  constructor
  · rintro ⟨_, vs, hu, hv, rfl⟩
    obtain ⟨T, hT, rfl⟩ := fits_char.mp hu
    exact ⟨T, hT, vs, hv, rfl⟩
  · rintro ⟨T, hT, Us, hU, rfl⟩
    exact ⟨[T], Us, fits_char.mpr ⟨T, hT, rfl⟩, hU, rfl⟩

@[simp]
theorem fits_char_mul_cons {T : Tree} :
    Fits (.char s * Q) (T :: Ts) ↔ T.symbol = s ∧ Fits Q Ts := by
  simp [fits_char_mul]

@[simp]
theorem not_fits_char_mul_nil : ¬ Fits (.char s * Q) [] := by
  simp [fits_char_mul]

@[simp]
theorem fits_opt : Fits (opt P) Ts ↔ Ts = [] ∨ Fits P Ts := by
  simp [opt, fits_one]

@[simp]
theorem fits_opt_mul : Fits (opt P * Q) Ts ↔ Fits Q Ts ∨ Fits (P * Q) Ts := by
  simp [opt, Fits, add_mul, Language.mem_add]

theorem fits_many_nil : Fits (many P) [] := ⟨[], rfl, by simp⟩

theorem Fits.many_append {us vs : List Tree} (hu : Fits P us) (hv : Fits (many P) vs) :
    Fits (many P) (us ++ vs) := by
  obtain ⟨L, h, hL⟩ := hv
  refine ⟨us.map symbol :: L, by simp [h], ?_⟩
  rintro x (_ | ⟨_, hx⟩)
  · exact hu
  · exact hL x hx

/-- There are no more `P`, or there is one at the front. -/
theorem fits_many_mul : Fits (many P * Q) Ts ↔ Fits Q Ts ∨ Fits (P * (many P * Q)) Ts := by
  constructor
  · intro h
    obtain ⟨us, vs, ⟨L, h, hL⟩, hv, rfl⟩ := fits_mul.mp h
    cases L with
    | nil =>
      obtain rfl : us = [] := by simpa using h
      exact .inl hv
    | cons x L =>
      obtain ⟨ws, us, rfl, rfl, hu⟩ := List.map_eq_append_iff.mp h
      have rest : Fits (many P) us := ⟨L, hu, fun y hy => hL y (List.mem_cons_of_mem _ hy)⟩
      rw [List.append_assoc]
      exact .inr (.append (hL _ List.mem_cons_self) (rest.append hv))
  · rintro (h | h)
    · exact fits_many_nil.append h
    · obtain ⟨us, _, hu, more, rfl⟩ := fits_mul.mp h
      obtain ⟨ws, vs, hw, hv, rfl⟩ := fits_mul.mp more
      rw [← List.append_assoc]
      exact (hu.many_append hw).append hv

theorem Fits.many_induction {motive : List Tree → Prop} (h : Fits (many P) Ts)
    (nil : motive []) (append : ∀ us vs, Fits P us → motive vs → motive (us ++ vs)) :
    motive Ts := by
  obtain ⟨L, h, hL⟩ := h
  induction L generalizing Ts with
  | nil =>
    obtain rfl : Ts = [] := by simpa using h
    exact nil
  | cons x L ih =>
    obtain ⟨us, vs, rfl, rfl, hv⟩ := List.map_eq_append_iff.mp h
    exact append us vs (hL _ List.mem_cons_self)
      (ih hv fun y hy => hL y (List.mem_cons_of_mem _ hy))

end Fits

end Tree

end TypeLens.Grammar
