import TypeLens.Proofs.Checking.Inference
import TypeLens.Proofs.Unification.MostGeneral

/-!
The substitution in the states of a run: its images never lead back to where they began, what two
types have in common stays, and two types are made equal in the most general way.
-/

namespace TypeLens

namespace Images

def Mentions (τ : Images) (m k : UVar) : Prop := ∃ t, τ.get? m = some t ∧ k ∈ t.uvarOccurrences

theorem Acyclic.not_transGen {τ : Images} (h : τ.Acyclic) (m : UVar) :
    ¬ Relation.TransGen τ.Mentions m m := by
  obtain ⟨rank, -, hr⟩ := h
  have lower {m k : UVar} (hmk : Relation.TransGen τ.Mentions m k) : rank k < rank m := by
    induction hmk with
    | single h =>
      obtain ⟨t, ht, hk⟩ := h
      exact hr m t ht _ hk
    | @tail k v _ h ih =>
      obtain ⟨t, ht, hv⟩ := h
      have hlt := hr k t ht v hv
      omega
  exact fun hm => Nat.lt_irrefl _ (lower hm)

end Images

namespace Check

variable {P : Ty → Prop} {N : Inferred → Prop} {s s' : State}

@[simp] theorem zonk_run_fst (t : Ty) (s : State) : ((zonk t).run s).1 = s.subst.apply t :=
  s.subst.zonk_fst t

@[simp] theorem zonk_run_subst (t : Ty) (s : State) :
    ((zonk t).run s).2.subst = (s.subst.zonk t).2 := rfl

theorem Runs.apply_eq_of_unify {a b : Ty} {loc : Span} (h : (s.subst.unify a b).2 = none)
    (hs : Runs P N ((unify a b loc).run s).2 s') :
    s'.subst.apply a = s'.subst.apply b := by
  have hgrow := hs.later.grows
  rw [unify_run_of_none loc h] at hgrow
  rw [← hgrow a, ← hgrow b]
  exact congrArg s'.subst.apply (Subst.unify_equates h)

/-- In every state, looking a type up comes to an end with a type of variables without images only,
and does not change what any type stands for. In every run, what a type stood for and the type
itself go on to stand for the same, and so do two types that were made equal. Checking a module is
such a run. -/
theorem runs_acyclic_grows (s : State) :
    (∀ m, ¬ Relation.TransGen s.subst.images.Mentions m m) ∧
    (∀ t, let r := (zonk t).run s
      Images.Zonks s.subst.images t r.1 r.2.subst.images ∧
      (∀ k ∈ r.1.uvarOccurrences, s.subst.images.get? k = none ∧
        r.2.subst.images.get? k = none) ∧
      ((zonk r.1).run r.2).1 = r.1 ∧
      ∀ u, ((zonk u).run r.2).1 = ((zonk u).run s).1) ∧
    (∀ s', Runs (fun _ => True) N s s' → ∀ t,
      ((zonk ((zonk t).run s).1).run s').1 = ((zonk t).run s').1) ∧
    (∀ a b loc s', (s.subst.unify a b).2 = none →
      Runs (fun _ => True) N ((unify a b loc).run s).2 s' →
      ((zonk a).run s').1 = ((zonk b).run s').1) ∧
    ∀ d instances m, Runs (fun _ => True) WellShaped s ((binds d instances m).run s).2 := by
  refine ⟨s.subst.acyclic.not_transGen, fun t => ⟨?_, fun k hk => ⟨?_, ?_⟩, ?_, fun u => ?_⟩,
    fun s' hs t => ?_, fun a b loc s' h hs => ?_, fun d is m => evolves_binds d is m s⟩
  · exact Images.zonk_zonks s.subst.acyclic t
  · rw [zonk_run_fst] at hk
    exact Images.get?_of_mem_apply s.subst.acyclic hk
  · rw [zonk_run_fst, ← Subst.apply_zonk s.subst t t] at hk
    exact Images.get?_of_mem_apply (s.subst.zonk t).2.acyclic hk
  · rw [zonk_run_fst, zonk_run_fst, zonk_run_subst, Subst.apply_zonk, Subst.apply_apply]
  · rw [zonk_run_fst, zonk_run_fst, zonk_run_subst, Subst.apply_zonk]
  · rw [zonk_run_fst, zonk_run_fst, zonk_run_fst, hs.later.grows]
  · rw [zonk_run_fst, zonk_run_fst, hs.apply_eq_of_unify h]

-- Most general unifiers

theorem mono_congr {σ σ' : Subst} (h : σ'.image? = σ.image?) (hσ : σ.images.Mono) :
    σ'.images.Mono := fun m t ht => hσ m t ((congrFun h m).symm.trans ht)

theorem mono_fixAll {σ : Subst} {ps : List (UVar × String)} (hn : (ps.map Prod.fst).Nodup)
    (hp : ∀ p ∈ ps, σ.image? p.1 = none) (hσ : σ.images.Mono) : (σ.fixAll ps).images.Mono := by
  intro m t ht
  have hm : t = (σ.apply (.uvar m)).substUvars fun k => (ps.lookup k).map .var := by
    rw [← Subst.apply_fixAll hn hp]
    simp only [Subst.apply, Images.apply, Ty.substUvars, ht, Option.getD_some]
  rw [hm]
  have hself : (Ty.uvar m).Mono := trivial
  refine (Images.mono_apply hσ hself).substUvars fun k _ u hu => ?_
  obtain ⟨tv, -, rfl⟩ := Option.map_eq_some_iff.1 hu
  exact trivial

theorem Step.mono (h : Step Ty.Mono N s s') (hs : s.subst.images.Mono) : s'.subst.images.Mono := by
  cases h with
  | fresh => exact hs
  | zonk t => exact mono_congr (s.subst.image?_zonk t) hs
  | @unify a b loc ha hb =>
    have hu : (s.subst.unify a b).1.images.Mono :=
      (Images.unify_unifies s.subst.acyclic a b).mono s.subst.acyclic hs ha hb
    exact mono_congr (unify_run_image? a b loc s) hu
  | note => exact hs
  | @skolemise uvars tvs hn hu =>
    have hsub := zip_fst_sublist uvars tvs
    refine mono_fixAll (hn.sublist hsub) (fun p hp => ?_) hs
    exact hu p.1 (hsub.subset (List.mem_map_of_mem hp))
  | other h => rwa [h]

theorem Runs.mono (h : Runs Ty.Mono N s s') (hs : s.subst.images.Mono) : s'.subst.images.Mono := by
  induction h with
  | refl => exact hs
  | tail _ hstep ih => exact hstep.mono ih

theorem mono_empty : Subst.empty.images.Mono := fun m t h => by cases h

/-- Two types that no assignment makes equal lead to a mismatch, and no other types do. Without one
both stand for the same afterwards, and an assignment goes with what is known then if and only if it
goes with what was known before and makes the types equal. -/
theorem unify_mostGeneral (hs : Runs Ty.Mono N {} s) {a b : Ty} (ha : a.Mono) (hb : b.Mono) :
    let r := s.subst.unify a b
    (∀ r', Images.Unifies s.subst.images a b r' ↔ r' = (r.1.images, r.2)) ∧
    (r.2 ≠ none ↔
      ¬ ∃ θ, Images.Respects θ s.subst.images ∧ a.assigned θ = b.assigned θ) ∧
    (r.2 = none → (r.1.zonk a).1 = (r.1.zonk b).1 ∧
      ∀ θ, Images.Respects θ r.1.images ↔
        Images.Respects θ s.subst.images ∧ a.assigned θ = b.assigned θ) := by
  intro r
  have hacyclic := s.subst.acyclic
  have hmono := hs.mono mono_empty
  have hrun : Images.Unifies s.subst.images a b (r.1.images, r.2) :=
    Images.unify_unifies hacyclic a b
  have hsettles (θ : Assignment) : Images.Settles θ s.subst.images a b (r.1.images, r.2) :=
    hrun.settles hacyclic hmono ha hb θ
  refine ⟨fun r' => ⟨fun h => h.unique hrun, fun h => h ▸ hrun⟩, ?_, fun hr => ⟨?_, fun θ => ?_⟩⟩
  · cases hr : r.2 with
    | none =>
      have hθ := hsettles fun m => r.1.apply (.uvar m)
      rw [hr] at hθ
      have hsol := hθ.1 (Images.respects_image? r.1.acyclic)
      exact ⟨fun h => absurd rfl h, fun h => absurd ⟨_, hsol⟩ h⟩
    | some e =>
      refine ⟨fun _ ⟨θ, hθ, he⟩ => ?_, fun _ => Option.some_ne_none e⟩
      have hne := hsettles θ
      rw [hr] at hne
      exact hne hθ he
  · rw [Subst.zonk_fst, Subst.zonk_fst]
    exact Subst.unify_equates hr
  · have hθ := hsettles θ
    rw [hr] at hθ
    exact hθ

/-- A variable that stands for a list of another is not equal to that one. -/
theorem unify_uvar_elem :
    let s := ((unify (.uvar 1) (.list (.uvar 2)) .unknown).run {}).2
    Runs Ty.Mono (fun _ => True) {} s ∧ (Ty.uvar 1).Mono ∧ (Ty.uvar 2).Mono ∧
      ¬ ∃ θ, Images.Respects θ s.subst.images ∧
        (Ty.uvar 1).assigned θ = (Ty.uvar 2).assigned θ := by
  intro s
  have hvar (m : UVar) : (Ty.uvar m).Mono := trivial
  have hlist : (Ty.list (.uvar 2)).Mono := ⟨trivial, trivial⟩
  have hs : Runs Ty.Mono (fun _ => True) {} s := .single (.unify {} .unknown (hvar 1) hlist)
  have hne : (s.subst.unify (.uvar 1) (.uvar 2)).2 ≠ none := by decide +kernel
  exact ⟨hs, hvar 1, hvar 2, (unify_mostGeneral hs (hvar 1) (hvar 2)).2.1.1 hne⟩

end Check

end TypeLens
