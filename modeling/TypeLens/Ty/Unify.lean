import TypeLens.Ty.Images

/-!
Unification: variables get images until two types stand for the same.
-/

namespace TypeLens

/-- Why two types cannot be made equal. -/
inductive Mismatch
  | clash
  /-- The variable occurs in the type that it should equal. -/
  | infinite (m : UVar) (t : Ty)
deriving DecidableEq, Repr

/-- Types without a variable at the top of which no parts are to be compared. -/
def Ty.clash : Ty → Ty → Bool
  | .uvar _, _ => false
  | _, .uvar _ => false
  | .var v, .var w => v != w
  | .con c, .con d => c != d
  | .app _ _, .app _ _ => false
  | _, _ => true

namespace Images

/-- The images that unification ends with, and why it stopped, if it did. -/
abbrev Unified := Images × Option Mismatch

/-- Makes a variable without an image equal to a type whose variables have none. -/
def unifyVar (τ : Images) (m : UVar) (t : Ty) : Unified :=
  if t = .uvar m then (τ, none)
  else if m ∈ t.uvarOccurrences then (τ, some (.infinite m t))
  else (τ.put m t, none)

/-- Unifies types whose variables have no images; `again` goes on with arguments whose variables
may have been given some. -/
def unifyWith (again : Images → Ty → Ty → Unified) (τ : Images) : Ty → Ty → Unified
  | .uvar m, t => τ.unifyVar m t
  | t, .uvar m => τ.unifyVar m t
  | .app f t, .app g u =>
    match unifyWith again τ f g with
    | (τ', some e) => (τ', some e)
    | (τ', none) => if τ'.length = τ.length then unifyWith again τ' t u else again τ' t u
  | .var v, .var w => (τ, if v = w then none else some .clash)
  | .con c, .con d => (τ, if c = d then none else some .clash)
  | _, _ => (τ, some .clash)

/-- Unification that gives images to at most `n` variables one after the other. -/
def unifyWithin : Nat → Images → Ty → Ty → Unified
  | 0, τ, t, u => unifyWith (fun τ _ _ => (τ, none)) τ t u
  | n + 1, τ, t, u =>
    unifyWith (fun τ t u =>
      let r := τ.zonk t
      let r' := r.2.zonk u
      unifyWithin n r'.2 r.1 r'.1) τ t u

/-- Makes two types equal, from left to right; what was equal before a mismatch stays so. -/
def unify (τ : Images) (t u : Ty) : Unified :=
  let r := τ.zonk t
  let r' := r.2.zonk u
  unifyWithin (r.1.uvarOccurrences ++ r'.1.uvarOccurrences).eraseDups.length r'.2 r.1 r'.1

/-- The runs of `zonk` on two types, one after the other. -/
def ZonksBoth (τ : Images) (t u t' u' : Ty) (τ' : Images) : Prop :=
  ∃ τ₁, Zonks τ t t' τ₁ ∧ Zonks τ₁ u u' τ'

/-- The run of `unify` on two types, without a bound: the types are replaced by what they stand for
wherever two are compared. -/
inductive Unifies : Images → Ty → Ty → Unified → Prop
  | left {τ τ' : Images} {t u u' : Ty} {m : UVar} (h : ZonksBoth τ t u (.uvar m) u' τ') :
      Unifies τ t u (τ'.unifyVar m u')
  | right {τ τ' : Images} {t u t' : Ty} {m : UVar} (h : ZonksBoth τ t u t' (.uvar m) τ')
      (ht : ∀ k, t' ≠ .uvar k) : Unifies τ t u (τ'.unifyVar m t')
  | var {τ τ' : Images} {t u : Ty} {v : String} (h : ZonksBoth τ t u (.var v) (.var v) τ') :
      Unifies τ t u (τ', none)
  | con {τ τ' : Images} {t u : Ty} {c : Name} (h : ZonksBoth τ t u (.con c) (.con c) τ') :
      Unifies τ t u (τ', none)
  | app {τ τ' τ₁ : Images} {t u f x g y : Ty} {r : Unified}
      (h : ZonksBoth τ t u (.app f x) (.app g y) τ') (hf : Unifies τ' f g (τ₁, none))
      (hx : Unifies τ₁ x y r) : Unifies τ t u r
  | stop {τ τ' τ₁ : Images} {t u f x g y : Ty} {e : Mismatch}
      (h : ZonksBoth τ t u (.app f x) (.app g y) τ') (hf : Unifies τ' f g (τ₁, some e)) :
      Unifies τ t u (τ₁, some e)
  | clash {τ τ' : Images} {t u t' u' : Ty} (h : ZonksBoth τ t u t' u' τ')
      (hc : t'.clash u' = true) : Unifies τ t u (τ', some .clash)

theorem ZonksBoth.unique {τ τ' τ'' : Images} {t u a b a' b' : Ty}
    (h : ZonksBoth τ t u a b τ') (h' : ZonksBoth τ t u a' b' τ'') :
    a = a' ∧ b = b' ∧ τ' = τ'' := by
  obtain ⟨τ₁, ht, hu⟩ := h
  obtain ⟨τ₂, ht', hu'⟩ := h'
  obtain ⟨rfl, rfl⟩ := ht.unique ht'
  obtain ⟨rfl, rfl⟩ := hu.unique hu'
  exact ⟨rfl, rfl, rfl⟩

theorem Unifies.unique {τ : Images} {t u : Ty} {r r' : Unified} (h : Unifies τ t u r)
    (h' : Unifies τ t u r') : r = r' := by
  induction h generalizing r' with
  | left hz =>
    cases h' with
    | left hz' => obtain ⟨⟨⟩, rfl, rfl⟩ := hz.unique hz'; rfl
    | right hz' ht => obtain ⟨rfl, -⟩ := hz.unique hz'; exact absurd rfl (ht _)
    | var hz' | con hz' | app hz' | stop hz' => cases (hz.unique hz').1
    | clash hz' hc => obtain ⟨rfl, -⟩ := hz.unique hz'; cases hc
  | right hz ht =>
    cases h' with
    | left hz' => obtain ⟨rfl, -⟩ := hz.unique hz'; exact absurd rfl (ht _)
    | right hz' => obtain ⟨rfl, ⟨⟩, rfl⟩ := hz.unique hz'; rfl
    | var hz' | con hz' | app hz' | stop hz' => cases (hz.unique hz').2.1
    | clash hz' hc =>
      obtain ⟨rfl, rfl, -⟩ := hz.unique hz'
      unfold Ty.clash at hc
      split at hc <;> simp_all
  | var hz =>
    cases h' with
    | left hz' | con hz' | app hz' | stop hz' => cases (hz.unique hz').1
    | right hz' => cases (hz.unique hz').2.1
    | var hz' => obtain ⟨⟨⟩, -, rfl⟩ := hz.unique hz'; rfl
    | clash hz' hc => obtain ⟨rfl, rfl, -⟩ := hz.unique hz'; simp [Ty.clash] at hc
  | con hz =>
    cases h' with
    | left hz' | var hz' | app hz' | stop hz' => cases (hz.unique hz').1
    | right hz' => cases (hz.unique hz').2.1
    | con hz' => obtain ⟨⟨⟩, -, rfl⟩ := hz.unique hz'; rfl
    | clash hz' hc => obtain ⟨rfl, rfl, -⟩ := hz.unique hz'; simp [Ty.clash] at hc
  | app hz _ _ ihf ihx =>
    cases h' with
    | left hz' | var hz' | con hz' => cases (hz.unique hz').1
    | right hz' => cases (hz.unique hz').2.1
    | app hz' hf' hx' =>
      obtain ⟨⟨⟩, ⟨⟩, rfl⟩ := hz.unique hz'
      obtain ⟨⟩ := ihf hf'
      exact ihx hx'
    | stop hz' hf' =>
      obtain ⟨⟨⟩, ⟨⟩, rfl⟩ := hz.unique hz'
      cases ihf hf'
    | clash hz' hc => obtain ⟨rfl, rfl, -⟩ := hz.unique hz'; cases hc
  | stop hz _ ihf =>
    cases h' with
    | left hz' | var hz' | con hz' => cases (hz.unique hz').1
    | right hz' => cases (hz.unique hz').2.1
    | app hz' hf' =>
      obtain ⟨⟨⟩, ⟨⟩, rfl⟩ := hz.unique hz'
      cases ihf hf'
    | stop hz' hf' =>
      obtain ⟨⟨⟩, ⟨⟩, rfl⟩ := hz.unique hz'
      exact ihf hf'
    | clash hz' hc => obtain ⟨rfl, rfl, -⟩ := hz.unique hz'; cases hc
  | clash hz hc =>
    cases h' with
    | left hz' => obtain ⟨rfl, -⟩ := hz.unique hz'; cases hc
    | right hz' =>
      obtain ⟨rfl, rfl, -⟩ := hz.unique hz'
      unfold Ty.clash at hc
      split at hc <;> simp_all
    | var hz' | con hz' => obtain ⟨rfl, rfl, -⟩ := hz.unique hz'; simp [Ty.clash] at hc
    | app hz' | stop hz' => obtain ⟨rfl, rfl, -⟩ := hz.unique hz'; cases hc
    | clash hz' => obtain ⟨-, -, rfl⟩ := hz.unique hz'; rfl

-- What unification keeps

/-- Later images: those of before go on to count, and new ones were given to variables in `L` only,
with variables in `L` only. -/
structure Extends (L : List UVar) (τ τ' : Images) : Prop where
  acyclic : τ'.Acyclic
  bound (m : UVar) : τ.get? m ≠ none → τ'.get? m ≠ none
  grows (t : Ty) : τ'.apply (τ.apply t) = τ'.apply t
  within (t : Ty) : (∀ k ∈ (τ.apply t).uvarOccurrences, k ∈ L) →
    ∀ k ∈ (τ'.apply t).uvarOccurrences, k ∈ L
  progress : τ'.length = τ.length ∧ τ'.image? = τ.image? ∨
    τ.length < τ'.length ∧ ∃ m ∈ L, τ.get? m = none ∧ τ'.get? m ≠ none

namespace Extends

variable {L : List UVar} {τ τ' τ'' : Images}

theorem of_image?_eq (h : τ.Acyclic) (h' : τ'.Acyclic) (hl : τ'.length = τ.length)
    (hi : τ'.image? = τ.image?) : Extends L τ τ' where
  acyclic := h'
  bound m hm := by rwa [ne_eq, ← image?_eq_none h', hi, image?_eq_none h]
  grows t := by simp only [apply, hi]; exact apply_apply h t
  within t ht := by simpa only [apply, hi] using ht
  progress := .inl ⟨hl, hi⟩

theorem refl (h : τ.Acyclic) : Extends L τ τ := of_image?_eq h h rfl rfl

theorem trans (h : Extends L τ τ') (h' : Extends L τ' τ'') : Extends L τ τ'' where
  acyclic := h'.acyclic
  bound m hm := h'.bound m (h.bound m hm)
  grows t := by rw [← h'.grows (τ.apply t), h.grows, h'.grows]
  within t ht := h'.within t (h.within t ht)
  progress := by
    rcases h.progress with ⟨hl, hi⟩ | ⟨hl, m, hm, hn, hb⟩
    · rcases h'.progress with ⟨hl', hi'⟩ | ⟨hl', m, hm, hn, hb⟩
      · exact .inl ⟨hl'.trans hl, hi'.trans hi⟩
      · refine .inr ⟨by omega, m, hm, ?_, hb⟩
        exact Decidable.byContradiction fun hτ => h.bound m hτ hn
    · refine .inr ⟨?_, m, hm, hn, h'.bound m hb⟩
      rcases h'.progress with ⟨hl', -⟩ | ⟨hl', -⟩ <;> omega

theorem get?_eq_none (h : Extends L τ τ') (ha : τ.Acyclic) (hl : τ'.length = τ.length) {m : UVar}
    (hm : τ.get? m = none) : τ'.get? m = none := by
  rcases h.progress with ⟨-, hi⟩ | ⟨hlt, -⟩
  · rwa [← image?_eq_none h.acyclic, hi, image?_eq_none ha]
  · omega

theorem within_of_free (h : Extends L τ τ') (ha : τ.Acyclic) {t : Ty}
    (ht : ∀ k ∈ t.uvarOccurrences, τ.get? k = none ∧ k ∈ L) :
    ∀ k ∈ (τ'.apply t).uvarOccurrences, k ∈ L := by
  refine h.within t ?_
  rw [apply_eq_self ha fun k hk => (ht k hk).1]
  exact fun k hk => (ht k hk).2

end Extends

theorem ZonksBoth.sound {τ τ' : Images} {t u t' u' : Ty} (h : ZonksBoth τ t u t' u' τ')
    (ha : τ.Acyclic) : t' = τ.apply t ∧ u' = τ.apply u ∧ τ'.Acyclic ∧
      τ'.length = τ.length ∧ τ'.image? = τ.image? := by
  obtain ⟨rank, hl, hr⟩ := ha
  obtain ⟨τ₁, ht, hu⟩ := h
  obtain ⟨rfl, hr₁, hlen₁, himage₁⟩ := ht.sound hl hr
  obtain ⟨rfl, hr₂, hlen₂, himage₂⟩ := hu.sound (by rwa [hlen₁]) hr₁
  refine ⟨rfl, ?_, ⟨rank, by rwa [hlen₂, hlen₁], hr₂⟩, hlen₂.trans hlen₁, himage₂.trans himage₁⟩
  rw [apply, apply, himage₁]

theorem ZonksBoth.extends {L : List UVar} {τ τ' : Images} {t u t' u' : Ty}
    (h : ZonksBoth τ t u t' u' τ') (ha : τ.Acyclic) : Extends L τ τ' := by
  obtain ⟨-, -, ha', hl, hi⟩ := h.sound ha
  exact .of_image?_eq ha ha' hl hi

theorem ZonksBoth.get?_eq_none {τ τ' : Images} {t u t' u' : Ty} (h : ZonksBoth τ t u t' u' τ')
    (ha : τ.Acyclic) :
    (∀ k ∈ t'.uvarOccurrences, τ'.get? k = none) ∧ ∀ k ∈ u'.uvarOccurrences, τ'.get? k = none := by
  obtain ⟨rfl, rfl, ha', -, hi⟩ := h.sound ha
  have hfree : ∀ t, ∀ k ∈ (τ.apply t).uvarOccurrences, τ'.get? k = none := by
    intro t k hk
    rw [← image?_eq_none ha', hi, image?_eq_none ha]
    exact get?_of_mem_apply ha hk
  exact ⟨hfree t, hfree u⟩

theorem extends_unifyVar {L : List UVar} {τ : Images} (ha : τ.Acyclic) {m : UVar} {t : Ty}
    (hm : τ.get? m = none) (ht : ∀ k ∈ t.uvarOccurrences, τ.get? k = none) (hmL : m ∈ L)
    (htL : ∀ k ∈ t.uvarOccurrences, k ∈ L) : Extends L τ (τ.unifyVar m t).1 := by
  unfold unifyVar
  split
  · exact .refl ha
  split
  · exact .refl ha
  next hmt =>
    have happly := apply_put_new ha hm ht hmt
    refine ⟨(put_new ha hm ht hmt).1, fun k hk => ?_, fun u => ?_, fun u hu k hk => ?_, .inr ?_⟩
    · rw [Table.get?_put]
      split
      · exact Option.some_ne_none _
      · exact hk
    · rw [happly, happly, apply_apply ha]
    · rw [happly] at hk
      obtain ⟨n, hn, hkn⟩ := Ty.mem_uvarOccurrences_substUvars.1 hk
      unfold Ty.single at hkn
      split at hkn
      · exact htL k hkn
      · obtain rfl : k = n := by simpa [Ty.uvarOccurrences] using hkn
        exact hu k hn
    · refine ⟨?_, m, hmL, hm, ?_⟩
      · rw [Table.length_put_of_none hm]
        omega
      · rw [Table.get?_put_self]
        exact Option.some_ne_none _

theorem ZonksBoth.parts_within {L : List UVar} {τ τ' : Images} {t u f x g y : Ty}
    (h : ZonksBoth τ t u (.app f x) (.app g y) τ') (ha : τ.Acyclic)
    (ht : ∀ k ∈ (τ.apply t).uvarOccurrences, k ∈ L)
    (hu : ∀ k ∈ (τ.apply u).uvarOccurrences, k ∈ L) {p : Ty} (hp : p ∈ [f, g, x, y]) :
    ∀ k ∈ (τ'.apply p).uvarOccurrences, k ∈ L := by
  obtain ⟨ht', hu', ha', -⟩ := h.sound ha
  obtain ⟨hfree, hfree'⟩ := h.get?_eq_none ha
  rw [← ht'] at ht
  rw [← hu'] at hu
  simp only [Ty.uvarOccurrences, List.mem_append] at ht hu hfree hfree'
  have hself : ∀ m ∈ p.uvarOccurrences, τ'.get? m = none ∧ m ∈ L := by
    intro m hm
    simp only [List.mem_cons, List.not_mem_nil, or_false] at hp
    rcases hp with rfl | rfl | rfl | rfl
    · exact ⟨hfree m (.inl hm), ht m (.inl hm)⟩
    · exact ⟨hfree' m (.inl hm), hu m (.inl hm)⟩
    · exact ⟨hfree m (.inr hm), ht m (.inr hm)⟩
    · exact ⟨hfree' m (.inr hm), hu m (.inr hm)⟩
  rw [apply_eq_self ha' fun m hm => (hself m hm).1]
  exact fun k hk => (hself k hk).2

/-- Unification gives images to variables of the two types, in terms of such variables. -/
theorem Unifies.extends {L : List UVar} {τ : Images} {t u : Ty} {r : Unified}
    (h : Unifies τ t u r) (ha : τ.Acyclic) (ht : ∀ k ∈ (τ.apply t).uvarOccurrences, k ∈ L)
    (hu : ∀ k ∈ (τ.apply u).uvarOccurrences, k ∈ L) : Extends L τ r.1 := by
  induction h with
  | left h =>
    obtain ⟨ht', rfl, ha', -⟩ := h.sound ha
    obtain ⟨hfree, hfree'⟩ := h.get?_eq_none ha
    rw [← ht'] at ht
    refine (h.extends ha).trans (extends_unifyVar ha' (hfree _ ?_) hfree' (ht _ ?_) hu) <;>
      simp [Ty.uvarOccurrences]
  | right h _ =>
    obtain ⟨rfl, hu', ha', -⟩ := h.sound ha
    obtain ⟨hfree, hfree'⟩ := h.get?_eq_none ha
    rw [← hu'] at hu
    refine (h.extends ha).trans (extends_unifyVar ha' (hfree' _ ?_) hfree (hu _ ?_) ht) <;>
      simp [Ty.uvarOccurrences]
  | var h | con h | clash h => exact h.extends ha
  | @app τ τ' τ₁ t u f x g y r h _ _ ihf ihx =>
    have hp {p : Ty} := h.parts_within (p := p) ha ht hu
    have hf := ihf (h.extends (L := L) ha).acyclic (hp (by simp)) (hp (by simp))
    have hx := ihx hf.acyclic (hf.within x (hp (by simp))) (hf.within y (hp (by simp)))
    exact ((h.extends ha).trans hf).trans hx
  | @stop τ τ' τ₁ t u f x g y e h _ ihf =>
    have hp {p : Ty} := h.parts_within (p := p) ha ht hu
    exact (h.extends ha).trans
      (ihf (h.extends (L := L) ha).acyclic (hp (by simp)) (hp (by simp)))

theorem Unifies.extends_self {τ : Images} {t u : Ty} {r : Unified} (h : Unifies τ t u r)
    (ha : τ.Acyclic) :
    Extends ((τ.apply t).uvarOccurrences ++ (τ.apply u).uvarOccurrences) τ r.1 :=
  h.extends ha (fun _ => List.mem_append_left _) (fun _ => List.mem_append_right _)

theorem unifyVar_equates {τ : Images} (ha : τ.Acyclic) {m : UVar} {t : Ty} (hm : τ.get? m = none)
    (ht : ∀ k ∈ t.uvarOccurrences, τ.get? k = none) (hr : (τ.unifyVar m t).2 = none) :
    (τ.unifyVar m t).1.apply (.uvar m) = (τ.unifyVar m t).1.apply t := by
  unfold unifyVar at hr ⊢
  split
  · next he => rw [he]
  split
  · next hne hmt => simp [hne, hmt] at hr
  next hmt =>
    have hself : τ.apply (.uvar m) = .uvar m :=
      apply_eq_self ha fun k hk => by
        obtain rfl : k = m := by simpa [Ty.uvarOccurrences] using hk
        exact hm
    rw [apply_put_new ha hm ht hmt, apply_put_new ha hm ht hmt, hself, apply_eq_self ha ht]
    refine Eq.trans (by simp [Ty.substUvars, Ty.single]) (Ty.substUvars_eq_self fun k hk => ?_).symm
    have hkm : k ≠ m := fun hkm => hmt (hkm ▸ hk)
    simp [Ty.single, hkm]

theorem ZonksBoth.apply_eq {τ τ' τ'' : Images} {t u t' u' : Ty} (h : ZonksBoth τ t u t' u' τ')
    (ha : τ.Acyclic) (hgrow : ∀ v, τ''.apply (τ'.apply v) = τ''.apply v)
    (he : τ''.apply t' = τ''.apply u') : τ''.apply t = τ''.apply u := by
  obtain ⟨rfl, rfl, -, -, hi⟩ := h.sound ha
  have hsame (v : Ty) : τ'.apply v = τ.apply v := congrArg v.substUvars hi
  have hlook (v : Ty) : τ''.apply (τ.apply v) = τ''.apply v := by rw [← hsame v, hgrow v]
  rw [← hlook t, ← hlook u, he]

theorem Unifies.equates {τ : Images} {t u : Ty} {r : Unified} (h : Unifies τ t u r)
    (ha : τ.Acyclic) (hr : r.2 = none) : r.1.apply t = r.1.apply u := by
  induction h with
  | @left τ τ' t u u' m h =>
    have ha' := (h.sound ha).2.2.1
    obtain ⟨hfree, hfree'⟩ := h.get?_eq_none ha
    have hm : τ'.get? m = none := hfree m (List.mem_singleton.2 rfl)
    have hx : Extends (m :: u'.uvarOccurrences) τ' (τ'.unifyVar m u').1 :=
      extends_unifyVar ha' hm hfree' (List.mem_cons_self ..) fun _ => List.mem_cons_of_mem _
    exact h.apply_eq ha hx.grows (unifyVar_equates ha' hm hfree' hr)
  | @right τ τ' t u t' m h =>
    have ha' := (h.sound ha).2.2.1
    obtain ⟨hfree, hfree'⟩ := h.get?_eq_none ha
    have hm : τ'.get? m = none := hfree' m (List.mem_singleton.2 rfl)
    have hx : Extends (m :: t'.uvarOccurrences) τ' (τ'.unifyVar m t').1 :=
      extends_unifyVar ha' hm hfree (List.mem_cons_self ..) fun _ => List.mem_cons_of_mem _
    exact h.apply_eq ha hx.grows (unifyVar_equates ha' hm hfree hr).symm
  | var h | con h => exact h.apply_eq ha (apply_apply (h.sound ha).2.2.1) rfl
  | @app τ τ' τ₁ t u f x g y r h hf hx ihf ihx =>
    have ha' := (h.sound ha).2.2.1
    have hef := hf.extends_self ha'
    have hex := hx.extends_self hef.acyclic
    have hfg : r.1.apply f = r.1.apply g := by
      rw [← hex.grows f, ← hex.grows g]
      exact congrArg r.1.apply (ihf ha' rfl)
    have hxy := ihx hef.acyclic hr
    refine h.apply_eq ha (fun v => ?_) ?_
    · rw [← hex.grows (τ'.apply v), ← hex.grows v]
      exact congrArg r.1.apply (hef.grows v)
    · have happ (t u : Ty) : r.1.apply (.app t u) = .app (r.1.apply t) (r.1.apply u) := rfl
      rw [happ, happ, hfg, hxy]
  | stop | clash => cases hr

-- The bounded run

theorem Unifies.of_zonked {τ τ' : Images} {t u t' u' : Ty} {r : Unified} (ha : τ.Acyclic)
    (h : ZonksBoth τ t u t' u' τ') (hr : Unifies τ' t' u' r) : Unifies τ t u r := by
  obtain ⟨hfree, hfree'⟩ := h.get?_eq_none ha
  have hsame {a b : Ty} {τ'' : Images} (hab : ZonksBoth τ' t' u' a b τ'') :
      a = t' ∧ b = u' ∧ τ'' = τ' := by
    obtain ⟨τ₁, ha, hb⟩ := hab
    obtain ⟨rfl, rfl⟩ := ha.unchanged hfree
    obtain ⟨rfl, rfl⟩ := hb.unchanged hfree'
    exact ⟨rfl, rfl, rfl⟩
  cases hr with
  | left h' => obtain ⟨rfl, rfl, rfl⟩ := hsame h'; exact .left h
  | right h' hm => obtain ⟨rfl, rfl, rfl⟩ := hsame h'; exact .right h hm
  | var h' => obtain ⟨rfl, rfl, rfl⟩ := hsame h'; exact .var h
  | con h' => obtain ⟨rfl, rfl, rfl⟩ := hsame h'; exact .con h
  | app h' hf hx => obtain ⟨rfl, rfl, rfl⟩ := hsame h'; exact .app h hf hx
  | stop h' hf => obtain ⟨rfl, rfl, rfl⟩ := hsame h'; exact .stop h hf
  | clash h' hc => obtain ⟨rfl, rfl, rfl⟩ := hsame h'; exact .clash h hc

/-- The number of variables in `L` that have no image. -/
def unbound (τ : Images) (L : List UVar) : Nat := L.countP fun m => (τ.get? m).isNone

theorem Extends.unbound_le {L : List UVar} {τ τ' : Images} (h : Extends L τ τ') (K : List UVar) :
    τ'.unbound K ≤ τ.unbound K := by
  refine List.countP_mono_left fun k _ hk => ?_
  rw [Option.isNone_iff_eq_none] at hk ⊢
  exact Decidable.byContradiction fun hτ => h.bound k hτ hk

theorem Extends.unbound_lt {L : List UVar} {τ τ' : Images} (h : Extends L τ τ')
    (hl : τ.length < τ'.length) : τ'.unbound L < τ.unbound L := by
  rcases h.progress with ⟨hl', -⟩ | ⟨-, m, hm, hn, hb⟩
  · omega
  obtain ⟨K, K', rfl⟩ := List.append_of_mem hm
  have hK := h.unbound_le K
  have hK' := h.unbound_le K'
  unfold unbound at hK hK' ⊢
  simp only [List.countP_append, List.countP_cons, hn, Option.isNone_none, if_true,
    Option.isNone_iff_eq_none, hb, if_false]
  omega

/-- `unifyWith` runs as it should if `again` does wherever a variable got an image before. -/
theorem unifyWith_unifies {again : Images → Ty → Ty → Unified} {L : List UVar} {τ₀ : Images}
    (h₀ : τ₀.Acyclic)
    (hagain : ∀ τ t u, Extends L τ₀ τ → τ₀.length < τ.length →
      (∀ k ∈ t.uvarOccurrences, τ₀.get? k = none ∧ k ∈ L) →
      (∀ k ∈ u.uvarOccurrences, τ₀.get? k = none ∧ k ∈ L) → Unifies τ t u (again τ t u))
    {τ : Images} {t u : Ty} (hτ : Extends L τ₀ τ) (hl : τ.length = τ₀.length)
    (ht : ∀ k ∈ t.uvarOccurrences, τ₀.get? k = none ∧ k ∈ L)
    (hu : ∀ k ∈ u.uvarOccurrences, τ₀.get? k = none ∧ k ∈ L) :
    Unifies τ t u (unifyWith again τ t u) := by
  -- As long as the images are as many as before, looking up what is free in `τ₀` changes nothing.
  have hboth {t u : Ty} (ht : ∀ k ∈ t.uvarOccurrences, τ₀.get? k = none ∧ k ∈ L)
      (hu : ∀ k ∈ u.uvarOccurrences, τ₀.get? k = none ∧ k ∈ L) {τ : Images}
      (hτ : Extends L τ₀ τ) (hl : τ.length = τ₀.length) : ZonksBoth τ t u t u τ :=
    ⟨τ, zonks_self fun k hk => hτ.get?_eq_none h₀ hl (ht k hk).1,
      zonks_self fun k hk => hτ.get?_eq_none h₀ hl (hu k hk).1⟩
  induction t generalizing τ u with
  | uvar m => exact .left (hboth ht hu hτ hl)
  | var v =>
    cases u with
    | uvar m => exact .right (hboth ht hu hτ hl) (by simp)
    | var w =>
      by_cases h : v = w
      · subst h
        simpa [unifyWith] using Unifies.var (hboth ht hu hτ hl)
      · simpa [unifyWith, h] using
          Unifies.clash (hboth ht hu hτ hl) (by simpa [Ty.clash] using h)
    | con | app | pred | forAll => exact .clash (hboth ht hu hτ hl) rfl
  | con c =>
    cases u with
    | uvar m => exact .right (hboth ht hu hτ hl) (by simp)
    | con d =>
      by_cases h : c = d
      · subst h
        simpa [unifyWith] using Unifies.con (hboth ht hu hτ hl)
      · simpa [unifyWith, h] using
          Unifies.clash (hboth ht hu hτ hl) (by simpa [Ty.clash] using h)
    | var | app | pred | forAll => exact .clash (hboth ht hu hτ hl) rfl
  | app f x ihf ihx =>
    cases u with
    | uvar m => exact .right (hboth ht hu hτ hl) (by simp)
    | app g y =>
      have happ := hboth ht hu hτ hl
      simp only [Ty.uvarOccurrences, List.mem_append] at ht hu
      have hf := ihf hτ hl (fun k hk => ht k (.inl hk)) (fun k hk => hu k (.inl hk))
      simp only [unifyWith]
      split
      · next τ' e he => rw [he] at hf; exact .stop happ hf
      · next τ' he =>
        rw [he] at hf
        refine .app happ hf ?_
        -- The arguments are looked up anew only if the functions gave a variable an image.
        have hτ' : Extends L τ τ' := hf.extends hτ.acyclic
          (hτ.within_of_free h₀ fun k hk => ht k (.inl hk))
          (hτ.within_of_free h₀ fun k hk => hu k (.inl hk))
        split
        · next hl' =>
          exact ihx (hτ.trans hτ') (hl'.trans hl) (fun k hk => ht k (.inr hk))
            (fun k hk => hu k (.inr hk))
        · next hl' =>
          refine hagain τ' x y (hτ.trans hτ') ?_ (fun k hk => ht k (.inr hk))
            (fun k hk => hu k (.inr hk))
          rcases hτ'.progress with ⟨hlen, -⟩ | ⟨hlen, -⟩ <;> omega
    | var | con | pred | forAll => exact .clash (hboth ht hu hτ hl) rfl
  | pred c t =>
    cases u with
    | uvar m => exact .right (hboth ht hu hτ hl) (by simp)
    | _ => exact .clash (hboth ht hu hτ hl) rfl
  | forAll tvs t =>
    cases u with
    | uvar m => exact .right (hboth ht hu hτ hl) (by simp)
    | _ => exact .clash (hboth ht hu hτ hl) rfl

/-- The bound is high enough when it counts the variables that can still get an image. -/
theorem unifyWithin_unifies {n : Nat} {L : List UVar} {τ : Images} {t u : Ty} (ha : τ.Acyclic)
    (ht : ∀ k ∈ t.uvarOccurrences, τ.get? k = none ∧ k ∈ L)
    (hu : ∀ k ∈ u.uvarOccurrences, τ.get? k = none ∧ k ∈ L) (hn : τ.unbound L ≤ n) :
    Unifies τ t u (unifyWithin n τ t u) := by
  induction n generalizing τ t u with
  | zero =>
    refine unifyWith_unifies ha (fun τ' x y hτ' hl _ _ => ?_) (.refl ha) rfl ht hu
    have hlt := hτ'.unbound_lt hl
    omega
  | succ n ih =>
    refine unifyWith_unifies ha (fun τ' x y hτ' hl hx hy => ?_) (.refl ha) rfl ht hu
    have hlt := hτ'.unbound_lt hl
    have hz : ZonksBoth τ' x y (τ'.zonk x).1 ((τ'.zonk x).2.zonk y).1 ((τ'.zonk x).2.zonk y).2 :=
      ⟨_, zonk_zonks hτ'.acyclic x, zonk_zonks (hτ'.acyclic.zonk x) y⟩
    have hext : Extends L τ' ((τ'.zonk x).2.zonk y).2 := hz.extends hτ'.acyclic
    obtain ⟨hx', hy', ha', hlen, -⟩ := hz.sound hτ'.acyclic
    obtain ⟨hfree, hfree'⟩ := hz.get?_eq_none hτ'.acyclic
    refine .of_zonked hτ'.acyclic hz (ih ha' (fun k hk => ⟨hfree k hk, ?_⟩)
      (fun k hk => ⟨hfree' k hk, ?_⟩) ?_)
    · exact hτ'.within_of_free ha hx k (hx' ▸ hk)
    · exact hτ'.within_of_free ha hy k (hy' ▸ hk)
    · have hle := hext.unbound_le L
      omega

theorem unify_unifies {τ : Images} (ha : τ.Acyclic) (t u : Ty) : Unifies τ t u (τ.unify t u) := by
  have hz : ZonksBoth τ t u (τ.zonk t).1 ((τ.zonk t).2.zonk u).1 ((τ.zonk t).2.zonk u).2 :=
    ⟨_, zonk_zonks ha t, zonk_zonks (ha.zonk t) u⟩
  obtain ⟨-, -, ha', -, -⟩ := hz.sound ha
  obtain ⟨hfree, hfree'⟩ := hz.get?_eq_none ha
  refine .of_zonked ha hz (unifyWithin_unifies ha' (fun k hk => ⟨hfree k hk, ?_⟩)
    (fun k hk => ⟨hfree' k hk, ?_⟩) List.countP_le_length)
  · rw [List.mem_eraseDups]
    exact List.mem_append_left _ hk
  · rw [List.mem_eraseDups]
    exact List.mem_append_right _ hk

theorem unify_extends {τ : Images} (ha : τ.Acyclic) (t u : Ty) :
    Extends ((τ.apply t).uvarOccurrences ++ (τ.apply u).uvarOccurrences) τ (τ.unify t u).1 :=
  (unify_unifies ha t u).extends_self ha

end Images

end TypeLens
