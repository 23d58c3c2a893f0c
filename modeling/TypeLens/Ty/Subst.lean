import TypeLens.Ty.Scheme
import TypeLens.Ty.Unify

/-!
The substitution of a run: what is known of unification variables so far.
-/

namespace TypeLens

/-- Images of unification variables among which no chain comes back to where it began. -/
structure Subst where
  images : Images
  acyclic : images.Acyclic

namespace Subst

def empty : Subst := ⟨[], .nil⟩

/-- What a variable stands for, if not for itself. -/
def image? (σ : Subst) (m : UVar) : Option Ty := σ.images.image? m

def apply (σ : Subst) (t : Ty) : Ty := σ.images.apply t

def applyPred (σ : Subst) (p : Pred) : Pred := p.substUvars σ.image?

/-- What a type stands for; the next time it is found with fewer steps. -/
def zonk (σ : Subst) (t : Ty) : Ty × Subst :=
  let r := σ.images.zonk t
  (r.1, ⟨r.2, σ.acyclic.zonk t⟩)

/-- Makes two types equal, from left to right; what was equal before a mismatch stays so. -/
def unify (σ : Subst) (t u : Ty) : Subst × Option Mismatch :=
  let r := σ.images.unify t u
  (⟨r.1, (Images.unify_extends σ.acyclic t u).acyclic⟩, r.2)

/-- Gives a rigid variable as image. -/
def fix (σ : Subst) (m : UVar) (tv : String) : Subst :=
  ⟨σ.images.put m (.var tv), σ.acyclic.put_ground m rfl⟩

theorem apply_eq (σ : Subst) (t : Ty) : σ.apply t = t.substUvars σ.image? := rfl

theorem apply_apply (σ : Subst) (t : Ty) : σ.apply (σ.apply t) = σ.apply t :=
  Images.apply_apply σ.acyclic t

theorem image?_of_mem_apply {σ : Subst} {t : Ty} {k : UVar}
    (hk : k ∈ (σ.apply t).uvarOccurrences) : σ.image? k = none :=
  (Images.image?_eq_none σ.acyclic).2 (Images.get?_of_mem_apply σ.acyclic hk)

theorem zonk_fst (σ : Subst) (t : Ty) : (σ.zonk t).1 = σ.apply t := Images.zonk_fst σ.acyclic t

theorem image?_zonk (σ : Subst) (t : Ty) : (σ.zonk t).2.image? = σ.image? :=
  Images.image?_zonk σ.acyclic t

@[simp] theorem apply_zonk (σ : Subst) (t u : Ty) : (σ.zonk t).2.apply u = σ.apply u := by
  rw [apply_eq, image?_zonk, apply_eq]

theorem unify_equates {σ : Subst} {t u : Ty} (h : (σ.unify t u).2 = none) :
    (σ.unify t u).1.apply t = (σ.unify t u).1.apply u :=
  (Images.unify_unifies σ.acyclic t u).equates σ.acyclic h

theorem image?_fix {σ : Subst} {m : UVar} (hm : σ.image? m = none) (tv : String) :
    (σ.fix m tv).image? = Ty.composed σ.image? (Ty.single m (.var tv)) :=
  (Images.put_new σ.acyclic ((Images.image?_eq_none σ.acyclic).1 hm)
    (by simp [Ty.uvarOccurrences]) (by simp [Ty.uvarOccurrences])).2

theorem apply_fix {σ : Subst} {m : UVar} (hm : σ.image? m = none) (tv : String) (t : Ty) :
    (σ.fix m tv).apply t = (σ.apply t).substUvars (Ty.single m (.var tv)) := by
  rw [apply_eq, image?_fix hm]
  exact (Ty.substUvars_substUvars _ _ t).symm

/-- Gives rigid variables as images, one after the other. -/
def fixAll (σ : Subst) (ps : List (UVar × String)) : Subst :=
  ps.foldl (fun σ p => σ.fix p.1 p.2) σ

theorem apply_fixAll {σ : Subst} {ps : List (UVar × String)} (hn : (ps.map Prod.fst).Nodup)
    (hp : ∀ p ∈ ps, σ.image? p.1 = none) (t : Ty) :
    (σ.fixAll ps).apply t = (σ.apply t).substUvars fun m => (ps.lookup m).map .var := by
  induction ps generalizing σ with
  | nil => exact (Ty.substUvars_none _).symm
  | cons p ps ih =>
    obtain ⟨m, tv⟩ := p
    simp only [List.map_cons, List.nodup_cons] at hn
    have hm : σ.image? m = none := hp (m, tv) (List.mem_cons_self ..)
    have hrest : ∀ p ∈ ps, (σ.fix m tv).image? p.1 = none := by
      intro p hmem
      have hne : p.1 ≠ m := fun h => hn.1 (h ▸ List.mem_map_of_mem hmem)
      rw [image?_fix hm]
      simp [Ty.composed, Ty.single, hne, hp p (List.mem_cons_of_mem _ hmem)]
    refine (ih hn.2 hrest).trans ?_
    rw [apply_fix hm, Ty.substUvars_substUvars]
    refine Ty.substUvars_congr fun k _ => ?_
    by_cases hk : k = m
    · simp [Ty.composed, Ty.single, hk, Ty.substUvars]
    · have hbeq : (k == m) = false := by simpa using hk
      simp [Ty.composed, Ty.single, hk, List.lookup_cons, hbeq]

/-- What a type stood for before stands for the same as the type does later. -/
def Grows (σ σ' : Subst) : Prop := ∀ t, σ'.apply (σ.apply t) = σ'.apply t

theorem Grows.refl (σ : Subst) : Grows σ σ := σ.apply_apply

theorem Grows.trans {σ σ' σ'' : Subst} (h : Grows σ σ') (h' : Grows σ' σ'') : Grows σ σ'' := by
  intro t
  rw [← h' (σ.apply t), h t, h' t]

theorem grows_zonk (σ : Subst) (t : Ty) : Grows σ (σ.zonk t).2 := by
  intro u
  rw [apply_zonk, apply_zonk, apply_apply]

theorem grows_unify (σ : Subst) (t u : Ty) : Grows σ (σ.unify t u).1 :=
  (Images.unify_extends σ.acyclic t u).grows

theorem grows_fixAll {σ : Subst} {ps : List (UVar × String)} (hn : (ps.map Prod.fst).Nodup)
    (hp : ∀ p ∈ ps, σ.image? p.1 = none) : Grows σ (σ.fixAll ps) := by
  intro t
  rw [apply_fixAll hn hp, apply_fixAll hn hp, apply_apply]

end Subst

end TypeLens
