import TypeLens.Ty.Basic

/-!
Unification variables in types, and what replacing them does.
-/

namespace TypeLens.Ty

/-- The replacement of one variable. -/
def single (m : UVar) (t : Ty) (k : UVar) : Option Ty := if k = m then some t else none

/-- Replaces by `f`, then in what comes of it by `g`. -/
def composed (f g : UVar → Option Ty) (m : UVar) : Option Ty :=
  ((f m).map (substUvars g)).or (g m)

theorem substUvars_substUvars (f g : UVar → Option Ty) (t : Ty) :
    (t.substUvars f).substUvars g = t.substUvars (composed f g) := by
  induction t with
  | var v => rfl
  | uvar m => cases h : f m <;> simp [substUvars, composed, h]
  | con c => rfl
  | app t u iht ihu => simp only [substUvars, iht, ihu]
  | pred c t ih => simp only [substUvars, ih]
  | forAll tvs t ih => simp only [substUvars, ih]

theorem substUvars_congr {f g : UVar → Option Ty} {t : Ty}
    (h : ∀ m ∈ t.uvarOccurrences, (f m).getD (.uvar m) = (g m).getD (.uvar m)) :
    t.substUvars f = t.substUvars g := by
  induction t with
  | var v => rfl
  | uvar m => exact h m (by simp [uvarOccurrences])
  | con c => rfl
  | app t u iht ihu =>
    simp only [uvarOccurrences, List.mem_append] at h
    rw [substUvars, substUvars, iht fun m hm => h m (.inl hm), ihu fun m hm => h m (.inr hm)]
  | pred c t ih => rw [substUvars, substUvars, ih h]
  | forAll tvs t ih => rw [substUvars, substUvars, ih h]

theorem substUvars_none (t : Ty) : t.substUvars (fun _ => none) = t := by
  induction t with
  | var v => rfl
  | uvar m => rfl
  | con c => rfl
  | app t u iht ihu => rw [substUvars, iht, ihu]
  | pred c t ih => rw [substUvars, ih]
  | forAll tvs t ih => rw [substUvars, ih]

theorem substUvars_eq_self {f : UVar → Option Ty} {t : Ty}
    (h : ∀ m ∈ t.uvarOccurrences, f m = none) : t.substUvars f = t :=
  (substUvars_congr fun m hm => by rw [h m hm]).trans t.substUvars_none

theorem mem_uvarOccurrences_substUvars {f : UVar → Option Ty} {t : Ty} {k : UVar} :
    k ∈ (t.substUvars f).uvarOccurrences ↔
      ∃ m ∈ t.uvarOccurrences, k ∈ ((f m).getD (.uvar m)).uvarOccurrences := by
  induction t with
  | var v => simp [substUvars, uvarOccurrences]
  | uvar m => simp [substUvars, uvarOccurrences]
  | con c => simp [substUvars, uvarOccurrences]
  | app t u iht ihu =>
    simp only [substUvars, uvarOccurrences, List.mem_append, iht, ihu]
    constructor
    · rintro (⟨m, hm, hk⟩ | ⟨m, hm, hk⟩)
      · exact ⟨m, .inl hm, hk⟩
      · exact ⟨m, .inr hm, hk⟩
    · rintro ⟨m, hm | hm, hk⟩
      · exact .inl ⟨m, hm, hk⟩
      · exact .inr ⟨m, hm, hk⟩
  | pred c t ih => exact ih
  | forAll tvs t ih => exact ih

theorem uvarOccurrences_apps (t : Ty) (ts : List Ty) :
    (apps t ts).uvarOccurrences = t.uvarOccurrences ++ ts.flatMap uvarOccurrences := by
  induction ts generalizing t with
  | nil => simp [apps]
  | cons u ts ih =>
    have happs : apps t (u :: ts) = apps (.app t u) ts := rfl
    rw [happs, ih, uvarOccurrences, List.flatMap_cons, List.append_assoc]

theorem uvarOccurrences_conApp {c : Name} {ts : List Ty} (h : ∀ t ∈ ts, t.uvarOccurrences = []) :
    (conApp c ts).uvarOccurrences = [] := by
  rw [conApp, uvarOccurrences_apps, uvarOccurrences, List.nil_append, List.flatMap_eq_nil_iff]
  exact h

theorem uvarOccurrences_substVars {f : String → Option Ty} {t : Ty} (ht : t.uvarOccurrences = [])
    (hf : ∀ v u, f v = some u → u.uvarOccurrences = []) : (t.substVars f).uvarOccurrences = [] := by
  induction t generalizing f with
  | var v =>
    cases h : f v with
    | none => simp [substVars, h, uvarOccurrences]
    | some u => simpa [substVars, h] using hf v u h
  | uvar m => cases ht
  | con c => rfl
  | app t u iht ihu =>
    obtain ⟨ht, hu⟩ := List.append_eq_nil_iff.1 ht
    simp only [substVars, uvarOccurrences, iht ht hf, ihu hu hf, List.append_nil]
  | pred c t ih => exact ih ht hf
  | forAll tvs t ih =>
    refine ih ht fun v u hu => ?_
    split at hu
    · cases hu
    · exact hf v u hu

end TypeLens.Ty
