import TypeLens.Proofs.Checking.Recovery

/-!
Types of core terms whatever their occurrences capture. An occurrence may replace rigid variables
that are not its own; what is a function stays a function then.
-/

namespace TypeLens

namespace Ty

/-- The second type is the first one with types in place of some of its rigid variables. -/
inductive Refines : Ty → Ty → Prop
  | var (v : String) (u : Ty) : Refines (.var v) u
  | uvar (m : UVar) : Refines (.uvar m) (.uvar m)
  | con (c : Name) : Refines (.con c) (.con c)
  | app {t t' u u' : Ty} : Refines t t' → Refines u u' → Refines (.app t u) (.app t' u')
  | pred {c : Name} {t t' : Ty} : Refines t t' → Refines (.pred c t) (.pred c t')
  | forAll {tvs : List String} {t t' : Ty} : Refines t t' → Refines (.forAll tvs t) (.forAll tvs t')

theorem Refines.refl (t : Ty) : t.Refines t := by
  induction t with
  | var v => exact .var v _
  | uvar m => exact .uvar m
  | con c => exact .con c
  | app t u iht ihu => exact .app iht ihu
  | pred c t ih => exact .pred ih
  | forAll tvs t ih => exact .forAll ih

theorem refines_substVars (g : String → Option Ty) (t : Ty) : t.Refines (t.substVars g) := by
  induction t generalizing g with
  | var v => exact .var v _
  | uvar m => exact .uvar m
  | con c => exact .con c
  | app t u iht ihu => exact .app (iht g) (ihu g)
  | pred c t ih => exact .pred (ih g)
  | forAll tvs t ih => exact .forAll (ih _)

/-- Quantified variables that are replaced last may be more than those of the type itself. -/
theorem refines_substUvars_substVars (f : UVar → Option Ty) (g : String → Option Ty) (t : Ty) :
    ((t.substVars g).substUvars f).Refines
      ((t.substUvars f).substVars fun v => (g v).map (·.substUvars f)) := by
  induction t generalizing g with
  | var v =>
    cases hg : g v with
    | none =>
      simp only [substVars, substUvars, hg, Option.getD_none, Option.map_none]
      exact .refl _
    | some t =>
      simp only [substVars, substUvars, hg, Option.getD_some, Option.map_some]
      exact .refl _
  | uvar m => exact refines_substVars _ _
  | con c => exact .con c
  | app t u iht ihu => exact .app (iht g) (ihu g)
  | pred c t ih => exact .pred (ih g)
  | forAll tvs t ih =>
    have hhide : (fun v => (if v ∈ tvs then none else g v).map (·.substUvars f)) =
        fun v => if v ∈ tvs then none else (g v).map (·.substUvars f) := by
      funext v
      split <;> rfl
    have hbody := ih fun v => if v ∈ tvs then none else g v
    rw [hhide] at hbody
    exact .forAll hbody

end Ty

theorem Core.functional_refines : Functional Ty.Refines where
  refl := .refl
  fn h := .app (.app (.con _) (.refl _)) h
  of_fn h := by
    cases h with
    | app hf hu =>
      cases hf with
      | app hc hp =>
        cases hc with
        | con => exact ⟨_, _, rfl, hu⟩

namespace Check.Ending

open TypeLens.Core (LowersAt)

variable {x : Ending} {h : Typed.Head} {ts : List Ty} {ds : List Typed.Hole} {l : Span} {t : Ty}

theorem lowersAt_refines (hw : WellShaped (.inst h ts ds l, t)) :
    LowersAt Ty.Refines x.core (x.answers.expr (.inst h ts ds l)) (x.answers.ty t) := by
  intro n r hr
  refine ⟨_, type_of_run_occurrence hw hr, ?_⟩
  obtain ⟨-, -, rfl⟩ := hw
  exact Ty.refines_substUvars_substVars x.answers.images.image? _ _

end Check.Ending

end TypeLens
