import TypeLens.Ty.Subst

/-!
Assignments of types to unification variables, and what unification says about them: those that make
two types equal, among those that go with the images given so far, are the ones that go with the
images given in the end.
-/

namespace TypeLens

abbrev Assignment := UVar → Ty

namespace Ty

/-- Made of variables and constructors only. -/
def Mono : Ty → Prop
  | .var _ => True
  | .uvar _ => True
  | .con _ => True
  | .app t u => t.Mono ∧ u.Mono
  | .pred _ _ => False
  | .forAll _ _ => False

def assigned (θ : Assignment) (t : Ty) : Ty := t.substUvars fun m => some (θ m)

theorem assigned_substUvars (θ : Assignment) (f : UVar → Option Ty) (t : Ty) :
    (t.substUvars f).assigned θ =
      t.assigned fun m => ((f m).getD (.uvar m)).assigned θ := by
  rw [assigned, substUvars_substUvars]
  refine substUvars_congr fun m _ => ?_
  cases h : f m <;> simp [composed, h, assigned, substUvars]

theorem assigned_congr {θ θ' : Assignment} {t : Ty} (h : ∀ m ∈ t.uvarOccurrences, θ m = θ' m) :
    t.assigned θ = t.assigned θ' :=
  substUvars_congr fun m hm => congrArg (fun u => (some u).getD (.uvar m)) (h m hm)

theorem Mono.substUvars {f : UVar → Option Ty} {t : Ty} (ht : t.Mono)
    (hf : ∀ m ∈ t.uvarOccurrences, ∀ u, f m = some u → u.Mono) : (t.substUvars f).Mono := by
  induction t with
  | uvar m =>
    cases h : f m with
    | none => simp [Ty.substUvars, h, Mono]
    | some u => simpa [Ty.substUvars, h] using hf m (by simp [uvarOccurrences]) u h
  | app t u iht ihu =>
    simp only [uvarOccurrences, List.mem_append] at hf
    exact ⟨iht ht.1 fun m hm => hf m (.inl hm), ihu ht.2 fun m hm => hf m (.inr hm)⟩
  | var | con => exact trivial
  | pred | forAll => exact ht.elim

theorem Mono.assigned {θ : Assignment} {t : Ty} (ht : t.Mono) (hθ : ∀ m, (θ m).Mono) :
    (t.assigned θ).Mono := by
  refine ht.substUvars fun m _ u hu => ?_
  rw [← Option.some.inj hu]
  exact hθ m

theorem Mono.substVars {f : String → Option Ty} {t : Ty} (ht : t.Mono)
    (hf : ∀ v u, f v = some u → u.Mono) : (t.substVars f).Mono := by
  induction t with
  | var v =>
    cases h : f v with
    | none => simp [Ty.substVars, h, Mono]
    | some u => simpa [Ty.substVars, h] using hf v u h
  | app t u iht ihu => exact ⟨iht ht.1, ihu ht.2⟩
  | uvar | con => exact trivial
  | pred | forAll => exact ht.elim

theorem mono_fns {ts : List Ty} {t : Ty} : (fns ts t).Mono ↔ (∀ u ∈ ts, u.Mono) ∧ t.Mono := by
  induction ts with
  | nil => simp [fns]
  | cons u ts ih =>
    simp only [fns, List.foldr_cons] at ih ⊢
    simp [fn, Mono, ih, and_assoc]

/-- Quantified variables can be replaced before or after others, if the type mentions no others. -/
theorem substUvars_substVars {f : UVar → Option Ty} {t : Ty} (ht : t.uvarOccurrences = [])
    (g : String → Option Ty) :
    (t.substVars g).substUvars f = t.substVars fun v => (g v).map (Ty.substUvars f) := by
  induction t generalizing g with
  | var v => cases h : g v <;> simp [Ty.substVars, h, Ty.substUvars]
  | uvar m => simp [uvarOccurrences] at ht
  | con c => rfl
  | app t u iht ihu =>
    simp only [uvarOccurrences, List.append_eq_nil_iff] at ht
    have happ : ((app t u).substVars g).substUvars f =
        app ((t.substVars g).substUvars f) ((u.substVars g).substUvars f) := rfl
    rw [happ, iht ht.1, ihu ht.2]
    rfl
  | pred c t ih => exact congrArg (pred c) (ih ht g)
  | forAll tvs t ih =>
    have hforAll : ((forAll tvs t).substVars g).substUvars f =
        forAll tvs ((t.substVars fun v => if v ∈ tvs then none else g v).substUvars f) := rfl
    rw [hforAll, ih ht, Ty.substVars]
    refine congrArg (fun g => forAll tvs (t.substVars g)) (funext fun v => ?_)
    by_cases hv : v ∈ tvs <;> simp [hv]

theorem substUvars_at (f : UVar → Option Ty) {t : Ty} (ht : t.uvarOccurrences = [])
    (tvs : List String) (ts : List Ty) :
    (t.substVars (assign tvs ts)).substUvars f =
      t.substVars (assign tvs (ts.map (Ty.substUvars f))) := by
  rw [substUvars_substVars ht]
  exact congrArg t.substVars (funext fun v => (assign_map _ _ _ _).symm)

theorem assigned_at (θ : Assignment) {t : Ty} (ht : t.uvarOccurrences = []) (tvs : List String)
    (ts : List Ty) :
    (t.substVars (assign tvs ts)).assigned θ =
      t.substVars (assign tvs (ts.map (Ty.assigned θ))) := substUvars_at _ ht tvs ts

theorem Mono.at {t : Ty} (ht : t.Mono) (tvs : List String) {ts : List Ty}
    (hts : ∀ u ∈ ts, u.Mono) : (t.substVars (assign tvs ts)).Mono :=
  ht.substVars fun _ u hu => hts u (mem_of_assign hu)

theorem forall_mono_assigned {θ : Assignment} (hθ : ∀ m, (θ m).Mono) {ts : List Ty}
    (hts : ∀ t ∈ ts, t.Mono) : ∀ u ∈ ts.map (Ty.assigned θ), u.Mono := by
  intro u hu
  obtain ⟨t, ht, rfl⟩ := List.mem_map.1 hu
  exact (hts t ht).assigned hθ

/-- A type without unification variables is what it is. -/
theorem assigned_eq_self {θ : Assignment} {t : Ty} (ht : t.uvarOccurrences = []) :
    t.assigned θ = t := by
  refine (substUvars_congr (g := fun _ => none) fun m hm => ?_).trans t.substUvars_none
  rw [ht] at hm
  cases hm

theorem mono_literal (v : Literal) : v.ty.Mono := by cases v <;> exact trivial

theorem uvarOccurrences_literal (v : Literal) : v.ty.uvarOccurrences = [] := by cases v <;> rfl

theorem size_le_assigned {θ : Assignment} {m : UVar} {t : Ty} (hm : m ∈ t.uvarOccurrences) :
    (θ m).size ≤ (t.assigned θ).size := by
  induction t with
  | var | con => cases hm
  | uvar k =>
    obtain rfl : m = k := by simpa [uvarOccurrences] using hm
    exact Nat.le_refl _
  | app t u iht ihu =>
    have hsize : ((Ty.app t u).assigned θ).size = (t.assigned θ).size + (u.assigned θ).size := rfl
    rw [hsize]
    rcases List.mem_append.1 hm with hm | hm
    · have := iht hm
      omega
    · have := ihu hm
      omega
  | pred c t ih =>
    have := ih hm
    have hsize : ((Ty.pred c t).assigned θ).size = (t.assigned θ).size + 1 := rfl
    omega
  | forAll tvs t ih => exact ih hm

/-- No type equals one that it is a proper part of. -/
theorem ne_assigned_of_mem {θ : Assignment} {m : UVar} {t : Ty} (ht : t.Mono) (hne : t ≠ .uvar m)
    (hm : m ∈ t.uvarOccurrences) : θ m ≠ t.assigned θ := by
  intro he
  have hsize : (θ m).size = (t.assigned θ).size := congrArg size he
  cases t with
  | var | con => cases hm
  | uvar k =>
    obtain rfl : m = k := by simpa [uvarOccurrences] using hm
    exact hne rfl
  | app t u =>
    have happ : ((Ty.app t u).assigned θ).size = (t.assigned θ).size + (u.assigned θ).size := rfl
    have ht := (t.assigned θ).size_pos
    have hu := (u.assigned θ).size_pos
    rcases List.mem_append.1 hm with hm | hm
    · have := size_le_assigned (θ := θ) hm
      omega
    · have := size_le_assigned (θ := θ) hm
      omega
  | pred | forAll => exact ht

theorem assigned_ne_of_clash {θ : Assignment} {t u : Ty} (ht : t.Mono) (hu : u.Mono)
    (h : t.clash u = true) : t.assigned θ ≠ u.assigned θ := by
  cases t <;> cases u <;>
    simp_all [clash, assigned, substUvars, Mono]

theorem assigned_app_eq_iff {θ : Assignment} {f x g y : Ty} :
    (app f x).assigned θ = (app g y).assigned θ ↔
      f.assigned θ = g.assigned θ ∧ x.assigned θ = y.assigned θ := by
  simp [assigned, substUvars]

end Ty

namespace Images

/-- What the images say of variables holds of the types assigned to them. -/
def Respects (θ : Assignment) (τ : Images) : Prop :=
  ∀ m t, τ.get? m = some t → θ m = t.assigned θ

/-- All that variables stand for is made of variables and constructors. -/
def Mono (τ : Images) : Prop := ∀ m t, τ.image? m = some t → t.Mono

theorem respects_iff {τ : Images} (h : τ.Acyclic) {θ : Assignment} :
    Respects θ τ ↔ ∀ t, (τ.apply t).assigned θ = t.assigned θ := by
  constructor
  · intro hθ t
    have image (m : UVar) : ((τ.image? m).getD (.uvar m)).assigned θ = θ m := by
      induction m using h.induction with
      | step m ih =>
        rw [image?_eq h]
        cases hm : τ.get? m with
        | none => rfl
        | some t =>
          rw [hθ m t hm, Option.map_some, Option.getD_some, apply, Ty.assigned_substUvars]
          exact Ty.assigned_congr (ih t hm)
    rw [apply, Ty.assigned_substUvars]
    exact Ty.assigned_congr fun m _ => image m
  · intro hθ m t hm
    have himage : τ.apply (.uvar m) = τ.apply t := by
      rw [apply, Ty.substUvars, image?_eq h, hm]
      rfl
    have hm := hθ (.uvar m)
    rw [himage, hθ t] at hm
    exact hm.symm

theorem respects_congr {τ τ' : Images} (h : τ.Acyclic) (h' : τ'.Acyclic)
    (hi : τ'.image? = τ.image?) {θ : Assignment} : Respects θ τ' ↔ Respects θ τ := by
  rw [respects_iff h, respects_iff h']
  simp only [apply, hi]

theorem mono_apply {τ : Images} (hτ : τ.Mono) {t : Ty} (ht : t.Mono) : (τ.apply t).Mono :=
  ht.substUvars fun m _ u hu => hτ m u hu

end Images

end TypeLens
