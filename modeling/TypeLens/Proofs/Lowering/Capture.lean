import TypeLens.Ty.Scheme

/-!
Two orders of replacing: quantified variables and then unification variables, or the other way
round. The outcome is the same unless what a unification variable stands for mentions a rigid
variable with the name of a quantified one.
-/

namespace TypeLens.Ty

/-- A replacement of rigid variables, but not of those in `hidden`. -/
def hide (hidden : List String) (g : String → Option Ty) (v : String) : Option Ty :=
  if v ∈ hidden then none else g v

theorem hide_hide (hidden tvs : List String) (g : String → Option Ty) :
    (fun v => if v ∈ tvs then none else hide hidden g v) = hide (hidden ++ tvs) g := by
  funext v
  by_cases ht : v ∈ tvs
  · simp [hide, ht]
  · by_cases hh : v ∈ hidden
    · simp [hide, ht, hh]
    · simp [hide, ht, hh]

/-- The unification variables from left to right, each with the names that are bound around it. -/
def scopedUvars (bound : List String) : Ty → List (UVar × List String)
  | .var _ => []
  | .uvar m => [(m, bound)]
  | .con _ => []
  | .app t u => t.scopedUvars bound ++ u.scopedUvars bound
  | .pred _ t => t.scopedUvars bound
  | .forAll tvs t => t.scopedUvars (bound ++ tvs)

theorem substVars_hide_eq_iff {f g : String → Option Ty} {bound : List String} {t : Ty} :
    t.substVars (hide bound f) = t.substVars (hide bound g) ↔
      ∀ v ∈ t.varOccurrences bound, (f v).getD (.var v) = (g v).getD (.var v) := by
  induction t generalizing bound with
  | var v =>
    by_cases hv : v ∈ bound
    · simp [substVars, varOccurrences, hide, hv]
    · simp [substVars, varOccurrences, hide, hv]
  | uvar m => simp [substVars, varOccurrences]
  | con c => simp [substVars, varOccurrences]
  | app t u iht ihu =>
    simp only [substVars, app.injEq, varOccurrences, List.forall_mem_append, iht, ihu]
  | pred c t ih => simp only [substVars, pred.injEq, true_and, varOccurrences, ih]
  | forAll tvs t ih => simp only [substVars, forAll.injEq, true_and, varOccurrences, hide_hide, ih]

theorem substVars_eq_iff {f g : String → Option Ty} {t : Ty} :
    t.substVars f = t.substVars g ↔
      ∀ v ∈ t.freeVars, (f v).getD (.var v) = (g v).getD (.var v) := by
  have hhide (h : String → Option Ty) : hide [] h = h := by
    funext v
    simp [hide]
  have hiff := @substVars_hide_eq_iff f g [] t
  simp only [hhide] at hiff
  simp only [hiff, freeVars, List.mem_eraseDups]

theorem substVars_hide_eq_self_iff {g : String → Option Ty} {bound : List String} {t : Ty} :
    t.substVars (hide bound g) = t ↔
      ∀ v ∈ t.varOccurrences bound, g v = none ∨ g v = some (.var v) := by
  induction t generalizing bound with
  | var v =>
    by_cases hv : v ∈ bound
    · simp [substVars, varOccurrences, hide, hv]
    · cases hg : g v with
      | none => simp [substVars, varOccurrences, hide, hv, hg]
      | some u => simp [substVars, varOccurrences, hide, hv, hg]
  | uvar m => simp [substVars, varOccurrences]
  | con c => simp [substVars, varOccurrences]
  | app t u iht ihu =>
    simp only [substVars, app.injEq, varOccurrences, List.forall_mem_append, iht, ihu]
  | pred c t ih => simp only [substVars, pred.injEq, true_and, varOccurrences, ih]
  | forAll tvs t ih => simp only [substVars, forAll.injEq, true_and, varOccurrences, hide_hide, ih]

theorem substVars_none (t : Ty) : t.substVars (fun _ => none) = t := by
  have hself : t.substVars (hide [] fun _ => none) = t :=
    substVars_hide_eq_self_iff.2 fun _ _ => .inl rfl
  exact hself

/-- A replacement of rigid variables changes no free variable of what a variable stands for. -/
def Untouched (f : UVar → Option Ty) (g : String → Option Ty) (p : UVar × List String) : Prop :=
  ∀ v ∈ ((f p.1).getD (.uvar p.1)).varOccurrences p.2,
    (g v).map (·.substUvars f) = none ∨ (g v).map (·.substUvars f) = some (.var v)

theorem substUvars_substVars_hide_eq_iff {f : UVar → Option Ty} {g : String → Option Ty}
    {bound : List String} {t : Ty} :
    (t.substUvars f).substVars (hide bound fun v => (g v).map (·.substUvars f)) =
        (t.substVars (hide bound g)).substUvars f ↔
      ∀ p ∈ t.scopedUvars bound, Untouched f g p := by
  induction t generalizing bound with
  | var v =>
    by_cases hv : v ∈ bound
    · simp [substUvars, substVars, scopedUvars, hide, hv]
    · cases hg : g v <;> simp [substUvars, substVars, scopedUvars, hide, hv, hg]
  | uvar m =>
    have himage : ((uvar m).substVars (hide bound g)).substUvars f = (f m).getD (.uvar m) := rfl
    have himage' : (uvar m).substUvars f = (f m).getD (.uvar m) := rfl
    rw [himage, himage', substVars_hide_eq_self_iff]
    simp only [scopedUvars, List.mem_singleton, forall_eq, Untouched]
  | con c => simp [substUvars, substVars, scopedUvars]
  | app t u iht ihu =>
    simp only [substUvars, substVars, app.injEq, scopedUvars, List.forall_mem_append, iht, ihu]
  | pred c t ih => simp only [substUvars, substVars, pred.injEq, true_and, scopedUvars, ih]
  | forAll tvs t ih =>
    simp only [substUvars, substVars, forAll.injEq, true_and, scopedUvars, hide_hide, ih]

theorem substUvars_substVars_eq_iff {f : UVar → Option Ty} {g : String → Option Ty} {t : Ty} :
    (t.substUvars f).substVars (fun v => (g v).map (·.substUvars f)) =
        (t.substVars g).substUvars f ↔
      ∀ p ∈ t.scopedUvars [], Untouched f g p :=
  @substUvars_substVars_hide_eq_iff f g [] t

end TypeLens.Ty
