import Mathlib.Data.List.Chain
import TypeLens.Proofs.Surface.Arities
import TypeLens.Proofs.Surface.Spans

/-!
Grouping equations loses nothing and leaves nothing to be grouped. Each result stands for a run of
neighbours, and whether two neighbours can be joined depends on the first equation of each only,
which joining keeps.
-/

namespace TypeLens

namespace Span

/-- A span from the start of the first place in a list to the end of the last one. Spans that are
not good are no places. -/
structure Reaches (s : Span) (ls : List Span) : Prop where
  good : s.good = ls.any Span.good
  start : ∀ l ∈ (ls.filter Span.good).head?, s.file = l.file ∧ s.start = l.start
  stop : ∀ l ∈ (ls.filter Span.good).getLast?, s.stop = l.stop

theorem reaches_self (s : Span) : s.Reaches [s] := by
  cases hs : s.good with
  | true => exact ⟨by simp [hs], by simp [hs], by simp [hs]⟩
  | false => exact ⟨by simp [hs], by simp [hs], by simp [hs]⟩

theorem Reaches.cover {s : Span} {ls : List Span} (h : s.Reaches ls) (t : Span) :
    (s.cover t).Reaches (ls ++ [t]) := by
  cases hs : s.good with
  | false =>
    have hnone : ls.filter Span.good = [] := by
      have hany := h.good.symm.trans hs
      simpa [List.filter_eq_nil_iff] using hany
    have hcover : s.cover t = t := by simp [Span.cover, hs]
    obtain ⟨hgood, hstart, hstop⟩ := t.reaches_self
    refine ⟨?_, ?_, ?_⟩
    · rw [hcover, List.any_append, ← h.good, hs, Bool.false_or, ← hgood]
    · rw [hcover, List.filter_append, hnone, List.nil_append]
      exact hstart
    · rw [hcover, List.filter_append, hnone, List.nil_append]
      exact hstop
  | true =>
    cases ht : t.good with
    | false =>
      have hcover : s.cover t = s := by simp [Span.cover, hs, ht]
      have hfilter : (ls ++ [t]).filter Span.good = ls.filter Span.good := by simp [ht]
      rw [hcover]
      refine ⟨?_, hfilter ▸ h.start, hfilter ▸ h.stop⟩
      simpa [ht] using h.good
    | true =>
      have hfilter : (ls ++ [t]).filter Span.good = ls.filter Span.good ++ [t] := by simp [ht]
      obtain ⟨l, hl⟩ : ∃ l, l ∈ (ls.filter Span.good).head? := by
        have hany := h.good.symm.trans hs
        obtain ⟨l, hl, hgood⟩ := List.any_eq_true.1 hany
        exact ⟨_, List.head?_eq_some_head (List.ne_nil_of_mem (List.mem_filter.2 ⟨hl, hgood⟩))⟩
      refine ⟨?_, ?_, ?_⟩
      · rw [good_cover hs ht]
        simp [ht]
      · rw [hfilter, List.head?_append, Option.mem_def.1 hl, file_cover hs ht, start_cover hs ht]
        rintro _ ⟨⟩
        exact h.start l hl
      · rw [hfilter, List.getLast?_concat, stop_cover hs ht]
        rintro _ ⟨⟩
        rfl

end Span

namespace Surface

-- Joining neighbours

section Joining

variable {α : Type} {join? : α → α → Option α}

/-- What joining builds, element by element, from runs of neighbours. -/
theorem exists_runs_joinFrom {R : List α → α → Prop} (hone : ∀ x, R [x] x)
    (hjoin : ∀ run x y z, R run x → join? x y = some z → R (run ++ [y]) z) {run : List α} {x : α}
    (hx : R run x) (ys : List α) :
    ∃ runs, runs.flatten = run ++ ys ∧ List.Forall₂ R runs (joinFrom join? x ys) := by
  induction ys generalizing run x with
  | nil => exact ⟨[run], by simp, .cons hx .nil⟩
  | cons y ys ih =>
    rw [joinFrom]
    split
    · next z hz =>
      obtain ⟨runs, hflatten, hruns⟩ := ih (hjoin _ _ _ _ hx hz)
      exact ⟨runs, by simpa using hflatten, hruns⟩
    · obtain ⟨runs, hflatten, hruns⟩ := ih (hone y)
      exact ⟨run :: runs, by simp [hflatten], .cons hx hruns⟩

theorem exists_runs_joinNeighbours {R : List α → α → Prop} (hone : ∀ x, R [x] x)
    (hjoin : ∀ run x y z, R run x → join? x y = some z → R (run ++ [y]) z) (xs : List α) :
    ∃ runs, runs.flatten = xs ∧ List.Forall₂ R runs (joinNeighbours join? xs) := by
  cases xs with
  | nil => exact ⟨[], rfl, .nil⟩
  | cons x xs => exact exists_runs_joinFrom hone hjoin (hone x) xs

/-- What cannot be joined with an element cannot be joined with what the element grows to. -/
def Keeps (join? : α → α → Option α) : Prop :=
  ∀ x y z w, join? x y = none → join? y z = some w → join? x w = none

theorem head_joinFrom (hkeep : Keeps join?) {u x : α} (hu : join? u x = none) (ys : List α) :
    ∀ z ∈ (joinFrom join? x ys).head?, join? u z = none := by
  induction ys generalizing x with
  | nil =>
    rintro _ ⟨⟩
    exact hu
  | cons y ys ih =>
    rw [joinFrom]
    split
    · next w hw => exact ih (hkeep _ _ _ _ hu hw)
    · rintro _ ⟨⟩
      exact hu

theorem isChain_joinFrom (hkeep : Keeps join?) (x : α) (ys : List α) :
    (joinFrom join? x ys).IsChain fun y z => join? y z = none := by
  induction ys generalizing x with
  | nil => exact .singleton x
  | cons y ys ih =>
    rw [joinFrom]
    split
    · next z hz => exact ih z
    · next hnone => exact List.isChain_cons.2 ⟨head_joinFrom hkeep hnone ys, ih y⟩

theorem isChain_joinNeighbours (hkeep : Keeps join?) (xs : List α) :
    (joinNeighbours join? xs).IsChain fun y z => join? y z = none := by
  cases xs with
  | nil => exact .nil
  | cons x xs => exact isChain_joinFrom hkeep x xs

theorem joinNeighbours_of_isChain {xs : List α}
    (h : xs.IsChain fun y z => join? y z = none) : joinNeighbours join? xs = xs := by
  have hfrom (ys : List α) (x : α) (h : (x :: ys).IsChain fun y z => join? y z = none) :
      joinFrom join? x ys = x :: ys := by
    induction ys generalizing x with
    | nil => rfl
    | cons y ys ih =>
      obtain ⟨hxy, hys⟩ := List.isChain_cons_cons.1 h
      simp [joinFrom, hxy, ih y hys]
  cases xs with
  | nil => rfl
  | cons x xs => exact hfrom xs x h

end Joining

-- Equations of one function

namespace FunBind

theorem even_of_single {b : FunBind} (h : b.equations = [b.first]) : b.Even := by
  rw [Even, h]
  exact List.forall_mem_singleton.2 rfl

/-- A function binding that stands for a run of them. -/
structure Merges (run : List FunBind) (b : FunBind) : Prop where
  equations : b.equations = run.flatMap FunBind.equations
  name : ∀ a ∈ run, a.name = b.name
  nameLoc : run.head?.map FunBind.nameLoc = some b.nameLoc
  arity : ∀ a ∈ run, a.arity = b.arity
  /-- From single equations come some with equally many patterns. -/
  even : (∀ a ∈ run, a.equations = [a.first]) → b.equations ≠ [] ∧ b.Even
  loc : b.loc.Reaches (run.map FunBind.loc)

theorem merges_self (b : FunBind) : Merges [b] b where
  equations := by simp
  name := by simp
  nameLoc := rfl
  arity := by simp
  even h := ⟨by cases b; simp [FunBind.equations], even_of_single (h b (by simp))⟩
  loc := b.loc.reaches_self

theorem Merges.join {run : List FunBind} {a b c : FunBind} (h : Merges run a)
    (hjoin : a.join? b = some c) : Merges (run ++ [b]) c := by
  obtain ⟨⟨hname, -, harity⟩, rfl⟩ := join?_eq_some_iff.1 hjoin
  constructor
  case equations =>
    have hfirst : a.equations = a.first :: a.equations.tail := by cases a; rfl
    rw [List.flatMap_append, ← h.equations, hfirst, List.flatMap_singleton]
    rfl
  case name => exact List.forall_mem_append.2 ⟨h.name, List.forall_mem_singleton.2 hname.symm⟩
  case nameLoc =>
    obtain ⟨d, hd, hloc⟩ := Option.map_eq_some_iff.1 h.nameLoc
    rw [List.head?_append, hd]
    exact congrArg some hloc
  case arity => exact List.forall_mem_append.2 ⟨h.arity, List.forall_mem_singleton.2 harity.symm⟩
  case even =>
    intro hsingle
    obtain ⟨hrun, hb⟩ := List.forall_mem_append.1 hsingle
    exact ⟨by simp [FunBind.equations],
      even_join? hjoin (h.even hrun).2 (even_of_single (hb b (List.mem_singleton.2 rfl)))⟩
  case loc =>
    rw [List.map_append]
    exact h.loc.cover b.loc

end FunBind

-- Declarations

/-- What a list of declarations consists of, whichever way equations are grouped. -/
inductive Clause
  | equation (name : String) (m : Match)
  | other (d : Decl)

namespace Decl

/-- A function binding is its equations; any other declaration is itself. -/
def clauses : Decl → List Clause
  | .bind (.fn b) => b.equations.map (.equation b.name)
  | d => [.other d]

/-- Two declarations that could be one binding: of one function, with equally many patterns, and
with some. -/
inductive Mergeable : Decl → Decl → Prop
  | functions {a b : FunBind} (hname : a.name = b.name) (hpats : 0 < a.first.pats.length)
      (hlength : a.first.pats.length = b.first.pats.length) :
      Mergeable (.bind (.fn a)) (.bind (.fn b))

/-- A declaration that stands for a run of them. -/
inductive Merges : List Decl → Decl → Prop
  | functions {run : List FunBind} {b : FunBind} (h : FunBind.Merges run b) :
      Merges (run.map fun a => .bind (.fn a)) (.bind (.fn b))
  | other {d : Decl} (h : ∀ b, d ≠ .bind (.fn b)) : Merges [d] d

theorem join?_eq_none_iff {d e : Decl} : d.join? e = none ↔ ¬ Mergeable d e := by
  rw [Option.eq_none_iff_forall_ne_some]
  constructor
  · rintro h ⟨hname, hpats, hlength⟩
    have hjoin := FunBind.join?_eq_some_iff.2 ⟨⟨hname, hpats, hlength⟩, rfl⟩
    exact h _ (join?_eq_some_iff.2 ⟨_, _, _, rfl, rfl, hjoin, rfl⟩)
  · intro h f hf
    obtain ⟨a, b, c, rfl, rfl, hc, -⟩ := join?_eq_some_iff.1 hf
    obtain ⟨⟨hname, hpats, hlength⟩, -⟩ := FunBind.join?_eq_some_iff.1 hc
    exact h (.functions hname hpats hlength)

theorem merges_self (d : Decl) : Merges [d] d := by
  by_cases h : ∃ b, d = .bind (.fn b)
  · obtain ⟨b, rfl⟩ := h
    exact .functions b.merges_self
  · exact .other fun b hb => h ⟨b, hb⟩

theorem Merges.join {run : List Decl} {d e f : Decl} (h : Merges run d)
    (hjoin : d.join? e = some f) : Merges (run ++ [e]) f := by
  obtain ⟨a, b, c, rfl, rfl, hc, rfl⟩ := join?_eq_some_iff.1 hjoin
  cases h with
  | functions h =>
    have hmerges := Merges.functions (h.join hc)
    rw [List.map_append] at hmerges
    exact hmerges
  | other h => exact absurd rfl (h a)

theorem Merges.clauses {run : List Decl} {d : Decl} (h : Merges run d) :
    run.flatMap Decl.clauses = d.clauses := by
  cases h with
  | @functions run b h =>
    have hrun (a : FunBind) (ha : a ∈ run) :
        Decl.clauses (.bind (.fn a)) = a.equations.map (.equation b.name) := by
      rw [← h.name a ha]
      rfl
    rw [List.flatMap_map, List.flatMap_congr hrun, ← List.map_flatMap, ← h.equations]
    rfl
  | other h => simp

theorem keeps_join? : Keeps Decl.join? := by
  intro d e e' f hde hjoin
  obtain ⟨a, b, c, rfl, rfl, hc, rfl⟩ := join?_eq_some_iff.1 hjoin
  obtain ⟨-, rfl⟩ := FunBind.join?_eq_some_iff.1 hc
  -- the joined binding has the name and the first equation of its first part
  rw [join?_eq_none_iff] at hde ⊢
  rintro ⟨hname, hpats, hlength⟩
  exact hde (.functions hname hpats hlength)

end Decl

/-- How a list of declarations is grouped. -/
structure Grouped (ds gs : List Decl) : Prop where
  clauses : gs.flatMap Decl.clauses = ds.flatMap Decl.clauses
  runs : ∃ runs, runs.flatten = ds ∧ List.Forall₂ Decl.Merges runs gs
  maximal : gs.IsChain fun d e => ¬ Decl.Mergeable d e
  again : groupDecls gs = gs

theorem flatMap_clauses_of_merges {runs : List (List Decl)} {gs : List Decl}
    (h : List.Forall₂ Decl.Merges runs gs) :
    gs.flatMap Decl.clauses = runs.flatten.flatMap Decl.clauses := by
  induction h with
  | nil => rfl
  | cons hd _ ih => rw [List.flatMap_cons, List.flatten_cons, List.flatMap_append, hd.clauses, ih]

theorem grouped_groupDecls (ds : List Decl) : Grouped ds (groupDecls ds) := by
  obtain ⟨runs, hflatten, hruns⟩ :
      ∃ runs, runs.flatten = ds ∧ List.Forall₂ Decl.Merges runs (groupDecls ds) :=
    exists_runs_joinNeighbours Decl.merges_self (fun _ _ _ _ => Decl.Merges.join) ds
  have hchain : (groupDecls ds).IsChain fun d e => d.join? e = none :=
    isChain_joinNeighbours Decl.keeps_join? ds
  constructor
  case clauses => rw [flatMap_clauses_of_merges hruns, hflatten]
  case runs => exact ⟨runs, hflatten, hruns⟩
  case maximal => exact hchain.imp fun _ _ => Decl.join?_eq_none_iff.1
  case again => exact joinNeighbours_of_isChain hchain

theorem groupDecls_bindings (bs : List Binding) :
    groupDecls (bs.map .bind) = (groupBindings bs).map .bind := by
  have hjoin (a b : Binding) : Decl.join? (.bind a) (.bind b) = (a.join? b).map .bind := rfl
  exact map_joinNeighbours hjoin bs

theorem groupBindings_functions (es : List FunBind) :
    groupBindings (es.map .fn) = (groupEquations es).map .fn := by
  have hjoin (a b : FunBind) : Binding.join? (.fn a) (.fn b) = (a.join? b).map .fn := rfl
  exact map_joinNeighbours hjoin es

-- Equations of a text

theorem single_equation (file : Option String) (e : Concrete.Equation) :
    Gives (buildEquation file e) fun b => b.equations = [b.first] ∧ b.loc = b.first.loc := by
  cases e with
  | mk binder ps eq e => exact .skip fun _ => .skip fun _ => .ok ⟨rfl, rfl⟩

/-- In a text that is read, an equation has a place. -/
theorem good_equation {w : Int} {source : String} {c : Concrete.Module}
    (h : readModule w source = .ok c) {e : Concrete.Equation} (he : e.yield.Sublist c.yield)
    (file : Option String) : Gives (buildEquation file e) fun b => b.loc.good := by
  have hordered : Token.Ordered c.yield := by
    rw [(readModule_eq_ok_iff.1 h).2]
    exact Layout.ordered_process w (Lex.ordered_lex _) isSynthetic_of_mem_lex
  intro b hb
  have hstands := (drawn_equation file e b hb).stands (hordered.sublist he)
  have hgood := hstands.good (List.mem_singleton.2 rfl)
  cases b
  exact hgood

/-- Grouping loses nothing: the results have the same equations and other declarations in the same
order, and each stands for a run of neighbours, whose first start and last end it has; of single
equations all have the same number of patterns. No two neighbours are left that could be one, and
grouping once more changes nothing. The same goes for the bindings of a `let` and the equations of
an instance. All equations that are read from a text are single, and have a place. -/
theorem grouping_lossless :
    (∀ ds : List Decl, Grouped ds (groupDecls ds)) ∧
    (∀ bs : List Binding, Grouped (bs.map .bind) ((groupBindings bs).map .bind)) ∧
    (∀ es : List FunBind,
      Grouped (es.map fun e => .bind (.fn e)) ((groupEquations es).map fun e => .bind (.fn e))) ∧
    ∀ (w : Int) (source : String) (c : Concrete.Module), readModule w source = .ok c →
      ∀ e : Concrete.Equation, e.yield.Sublist c.yield → ∀ file,
        Gives (buildEquation file e) fun b =>
          b.equations = [b.first] ∧ b.loc = b.first.loc ∧ b.loc.good := by
  have hbindings (bs : List Binding) :
      Grouped (bs.map .bind) ((groupBindings bs).map .bind) := by
    rw [← groupDecls_bindings]
    exact grouped_groupDecls _
  refine ⟨grouped_groupDecls, hbindings, fun es => ?_, ?_⟩
  · have hfunctions := hbindings (es.map .fn)
    rw [groupBindings_functions, List.map_map, List.map_map] at hfunctions
    exact hfunctions
  · intro w source c h e he file b hb
    obtain ⟨hsingle, hloc⟩ := single_equation file e b hb
    exact ⟨hsingle, hloc, good_equation h he file b hb⟩

end Surface

end TypeLens
