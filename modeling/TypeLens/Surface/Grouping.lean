import TypeLens.Surface.Tree

/-!
Neighbouring equations of one function become one binding. Equations without patterns, and equations
with different numbers of patterns, stay apart.
-/

namespace TypeLens.Surface

variable {α : Type}

/-- Joins neighbours from the left while `join?` can. -/
def joinFrom (join? : α → α → Option α) (x : α) : List α → List α
  | [] => [x]
  | y :: ys =>
    match join? x y with
    | some z => joinFrom join? z ys
    | none => x :: joinFrom join? y ys

def joinNeighbours (join? : α → α → Option α) : List α → List α
  | [] => []
  | x :: xs => joinFrom join? x xs

namespace FunBind

/-- The number of patterns in the first equation. -/
def arity (b : FunBind) : Nat := b.first.pats.length

def join? (a b : FunBind) : Option FunBind :=
  if a.name = b.name ∧ 0 < a.arity ∧ a.arity = b.arity then
    match a, b with
    | .mk n nl m ms l, .mk _ _ m' ms' l' => some (.mk n nl m (ms ++ m' :: ms') (l.cover l'))
  else none

theorem join?_eq_some_iff {a b c : FunBind} :
    a.join? b = some c ↔ (a.name = b.name ∧ 0 < a.arity ∧ a.arity = b.arity) ∧
      c = .mk a.name a.nameLoc a.first (a.equations.tail ++ b.equations) (a.loc.cover b.loc) := by
  obtain ⟨n, nl, m, ms, l⟩ := a
  obtain ⟨n', nl', m', ms', l'⟩ := b
  rw [join?, Option.ite_none_right_eq_some, Option.some.injEq, @eq_comm _ _ c]
  rfl

end FunBind

def Binding.join? : Binding → Binding → Option Binding
  | .fn a, .fn b => (a.join? b).map .fn
  | _, _ => none

theorem Binding.join?_eq_some_iff {x y z : Binding} : x.join? y = some z ↔
    ∃ a b c, x = .fn a ∧ y = .fn b ∧ a.join? b = some c ∧ z = .fn c := by
  constructor
  · intro h
    unfold Binding.join? at h
    split at h
    · next a b =>
      obtain ⟨c, hc, rfl⟩ := Option.map_eq_some_iff.1 h
      exact ⟨a, b, c, rfl, rfl, hc, rfl⟩
    · cases h
  · rintro ⟨a, b, c, rfl, rfl, hc, rfl⟩
    simp [Binding.join?, hc]

def Decl.join? : Decl → Decl → Option Decl
  | .bind a, .bind b => (a.join? b).map .bind
  | _, _ => none

theorem Decl.join?_eq_some_iff {d e f : Decl} : d.join? e = some f ↔
    ∃ a b c, d = .bind (.fn a) ∧ e = .bind (.fn b) ∧ a.join? b = some c ∧ f = .bind (.fn c) := by
  constructor
  · intro h
    unfold Decl.join? at h
    split at h
    · obtain ⟨z, hz, rfl⟩ := Option.map_eq_some_iff.1 h
      obtain ⟨a, b, c, rfl, rfl, hc, rfl⟩ := Binding.join?_eq_some_iff.1 hz
      exact ⟨a, b, c, rfl, rfl, hc, rfl⟩
    · cases h
  · rintro ⟨a, b, c, rfl, rfl, hc, rfl⟩
    simp [Decl.join?, Binding.join?, hc]

def groupEquations (bs : List FunBind) : List FunBind := joinNeighbours FunBind.join? bs

def groupBindings (bs : List Binding) : List Binding := joinNeighbours Binding.join? bs

def groupDecls (ds : List Decl) : List Decl := joinNeighbours Decl.join? ds

end TypeLens.Surface
