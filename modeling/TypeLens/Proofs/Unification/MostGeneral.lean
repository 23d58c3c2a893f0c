import TypeLens.Proofs.Unification.Assignment

/-!
Unification finds most general unifiers.
-/

namespace TypeLens.Images

theorem ZonksBoth.mono {τ τ' : Images} {t u t' u' : Ty} (h : ZonksBoth τ t u t' u' τ')
    (ha : τ.Acyclic) (hτ : τ.Mono) (ht : t.Mono) (hu : u.Mono) :
    τ'.Mono ∧ t'.Mono ∧ u'.Mono := by
  obtain ⟨rfl, rfl, -, -, hi⟩ := h.sound ha
  refine ⟨?_, mono_apply hτ ht, mono_apply hτ hu⟩
  unfold Mono
  rwa [hi]

theorem mono_put {τ : Images} (ha : τ.Acyclic) (hτ : τ.Mono) {m : UVar} (hm : τ.get? m = none)
    {t : Ty} (ht : t.Mono) (hfree : ∀ k ∈ t.uvarOccurrences, τ.get? k = none)
    (hmt : m ∉ t.uvarOccurrences) : (τ.put m t).Mono := by
  intro k u hk
  have hsingle (n : UVar) (v : Ty) (h : Ty.single m t n = some v) : v.Mono := by
    unfold Ty.single at h
    split at h
    · rwa [← Option.some.inj h]
    · cases h
  rw [(put_new ha hm hfree hmt).2, Ty.composed] at hk
  cases hi : τ.image? k with
  | none =>
    rw [hi, Option.map_none, Option.none_or] at hk
    exact hsingle k u hk
  | some v =>
    rw [hi, Option.map_some, Option.some_or, Option.some.injEq] at hk
    rw [← hk]
    exact (hτ k v hi).substUvars fun n _ => hsingle n

theorem mono_unifyVar {τ : Images} (ha : τ.Acyclic) (hτ : τ.Mono) {m : UVar}
    (hm : τ.get? m = none) {t : Ty} (ht : t.Mono)
    (hfree : ∀ k ∈ t.uvarOccurrences, τ.get? k = none) : (τ.unifyVar m t).1.Mono := by
  unfold unifyVar
  split
  · exact hτ
  split
  · exact hτ
  next hmt => exact mono_put ha hτ hm ht hfree hmt

theorem Unifies.mono {τ : Images} {t u : Ty} {r : Unified} (h : Unifies τ t u r) (ha : τ.Acyclic)
    (hτ : τ.Mono) (ht : t.Mono) (hu : u.Mono) : r.1.Mono := by
  induction h with
  | left h =>
    obtain ⟨hτ', -, hu'⟩ := h.mono ha hτ ht hu
    obtain ⟨hfree, hfree'⟩ := h.get?_eq_none ha
    exact mono_unifyVar (h.sound ha).2.2.1 hτ' (hfree _ (List.mem_singleton.2 rfl)) hu' hfree'
  | right h _ =>
    obtain ⟨hτ', ht', -⟩ := h.mono ha hτ ht hu
    obtain ⟨hfree, hfree'⟩ := h.get?_eq_none ha
    exact mono_unifyVar (h.sound ha).2.2.1 hτ' (hfree' _ (List.mem_singleton.2 rfl)) ht' hfree
  | var h | con h | clash h => exact (h.mono ha hτ ht hu).1
  | app h hf _ ihf ihx =>
    obtain ⟨hτ', ht', hu'⟩ := h.mono ha hτ ht hu
    have ha' := (h.sound ha).2.2.1
    have hτ₁ := ihf ha' hτ' ht'.1 hu'.1
    exact ihx (hf.extends_self ha').acyclic hτ₁ ht'.2 hu'.2
  | stop h _ ihf =>
    obtain ⟨hτ', ht', hu'⟩ := h.mono ha hτ ht hu
    exact ihf (h.sound ha).2.2.1 hτ' ht'.1 hu'.1

-- What the outcome says of assignments

/-- An assignment that goes with the images and makes the types equal goes with the images in the
end, and no other one does; after a mismatch there is none. -/
def Settles (θ : Assignment) (τ : Images) (t u : Ty) : Unified → Prop
  | (τ', none) => Respects θ τ' ↔ Respects θ τ ∧ t.assigned θ = u.assigned θ
  | (_, some _) => Respects θ τ → t.assigned θ ≠ u.assigned θ

theorem settles_unifyVar {θ : Assignment} {τ : Images} {m : UVar} {t : Ty} (hm : τ.get? m = none)
    (ht : t.Mono) : Settles θ τ (.uvar m) t (τ.unifyVar m t) := by
  unfold unifyVar
  split
  · next he =>
    subst he
    exact ⟨fun h => ⟨h, rfl⟩, And.left⟩
  split
  · next hne hmt => exact fun _ => Ty.ne_assigned_of_mem ht hne hmt
  · constructor
    · intro h
      refine ⟨fun k u hk => h k u ?_, h m t (Table.get?_put_self m t τ)⟩
      rw [Table.get?_put_of_ne _ t τ]
      · exact hk
      · rintro rfl
        rw [hm] at hk
        cases hk
    · rintro ⟨h, he⟩ k u hk
      rw [Table.get?_put] at hk
      split at hk
      · next hmk =>
        obtain rfl : t = u := by simpa using hk
        rw [← hmk]
        exact he
      · exact h k u hk

theorem Settles.symm {θ : Assignment} {τ : Images} {t u : Ty} {r : Unified}
    (h : Settles θ τ t u r) : Settles θ τ u t r := by
  obtain ⟨τ', _ | e⟩ := r
  · exact h.trans (and_congr_right fun _ => eq_comm)
  · exact fun hθ he => h hθ he.symm

theorem Settles.of_zonked {θ : Assignment} {τ τ' : Images} {t u t' u' : Ty} {r : Unified}
    (ha : τ.Acyclic) (h : ZonksBoth τ t u t' u' τ') (hs : Settles θ τ' t' u' r) :
    Settles θ τ t u r := by
  obtain ⟨rfl, rfl, ha', -, hi⟩ := h.sound ha
  have hτ : Respects θ τ' ↔ Respects θ τ := respects_congr ha ha' hi
  have hsame (hθ : Respects θ τ) :
      (τ.apply t).assigned θ = (τ.apply u).assigned θ ↔ t.assigned θ = u.assigned θ := by
    rw [(respects_iff ha).1 hθ t, (respects_iff ha).1 hθ u]
  obtain ⟨τ'', _ | e⟩ := r
  · exact Iff.trans hs ⟨fun ⟨hθ, he⟩ => ⟨hτ.1 hθ, (hsame (hτ.1 hθ)).1 he⟩,
      fun ⟨hθ, he⟩ => ⟨hτ.2 hθ, (hsame hθ).2 he⟩⟩
  · exact fun hθ he => hs (hτ.2 hθ) ((hsame hθ).2 he)

theorem settles_same {θ : Assignment} {τ : Images} (t : Ty) : Settles θ τ t t (τ, none) :=
  ⟨fun h => ⟨h, rfl⟩, And.left⟩

theorem Unifies.settles {τ : Images} {t u : Ty} {r : Unified} (h : Unifies τ t u r)
    (ha : τ.Acyclic) (hτ : τ.Mono) (ht : t.Mono) (hu : u.Mono) (θ : Assignment) :
    Settles θ τ t u r := by
  induction h with
  | left h =>
    obtain ⟨-, -, hu'⟩ := h.mono ha hτ ht hu
    have hm := (h.get?_eq_none ha).1 _ (List.mem_singleton.2 rfl)
    exact .of_zonked ha h (settles_unifyVar hm hu')
  | right h _ =>
    obtain ⟨-, ht', -⟩ := h.mono ha hτ ht hu
    have hm := (h.get?_eq_none ha).2 _ (List.mem_singleton.2 rfl)
    exact .of_zonked ha h (settles_unifyVar hm ht').symm
  | var h => exact .of_zonked ha h (settles_same _)
  | con h => exact .of_zonked ha h (settles_same _)
  | @app τ τ' τ₁ t u f x g y r h hf _ ihf ihx =>
    obtain ⟨hτ', ht', hu'⟩ := h.mono ha hτ ht hu
    have ha' := (h.sound ha).2.2.1
    have hf' := ihf ha' hτ' ht'.1 hu'.1
    have hx' := ihx (hf.extends_self ha').acyclic (hf.mono ha' hτ' ht'.1 hu'.1) ht'.2 hu'.2
    refine .of_zonked ha h ?_
    obtain ⟨τ₂, _ | e⟩ := r
    · refine Iff.trans hx' ?_
      rw [Ty.assigned_app_eq_iff, ← and_assoc]
      exact and_congr_left fun _ => hf'
    · intro hθ he
      rw [Ty.assigned_app_eq_iff] at he
      exact hx' (hf'.2 ⟨hθ, he.1⟩) he.2
  | stop h _ ihf =>
    obtain ⟨hτ', ht', hu'⟩ := h.mono ha hτ ht hu
    have hf' := ihf (h.sound ha).2.2.1 hτ' ht'.1 hu'.1
    refine .of_zonked ha h fun hθ he => hf' hθ ?_
    exact (Ty.assigned_app_eq_iff.1 he).1
  | clash h hc =>
    obtain ⟨-, ht', hu'⟩ := h.mono ha hτ ht hu
    exact .of_zonked ha h fun _ => Ty.assigned_ne_of_clash ht' hu' hc

theorem respects_image? {τ : Images} (h : τ.Acyclic) :
    Respects (fun m => τ.apply (.uvar m)) τ := by
  have hself (t : Ty) : t.assigned (fun m => τ.apply (.uvar m)) = τ.apply t :=
    Ty.substUvars_congr fun m _ => rfl
  rw [respects_iff h]
  intro t
  rw [hself, hself, apply_apply h]

end TypeLens.Images
