import TypeLens.Table
import TypeLens.Ty.UVar

/-!
Images of unification variables. An image is looked up when a type is needed, and what it stands for
takes its place.
-/

namespace TypeLens

/-- An image may mention variables that have images in turn. -/
abbrev Images := Table UVar Ty

namespace Images

/-- Gives a variable an image, in place of the one it has. -/
abbrev put (τ : Images) (m : UVar) (t : Ty) : Images := Table.put m t τ

/-- What a variable stands for, found in at most `n` images, each in the one before. -/
def imageWithin (τ : Images) : Nat → UVar → Option Ty
  | 0, _ => none
  | n + 1, m => (τ.get? m).map (·.substUvars (τ.imageWithin n))

/-- What a variable stands for in the end. -/
def image? (τ : Images) (m : UVar) : Option Ty := τ.imageWithin (τ.length + 1) m

def apply (τ : Images) (t : Ty) : Ty := t.substUvars τ.image?

/-- Replaces variables from left to right; `again` deals with images. -/
def zonkWith (again : Images → Ty → Ty × Images) (τ : Images) : Ty → Ty × Images
  | .var v => (.var v, τ)
  | .con c => (.con c, τ)
  | .uvar m =>
    match τ.get? m with
    | none => (.uvar m, τ)
    | some b =>
      let r := again τ b
      (r.1, r.2.put m r.1)
  | .app t u =>
    let r := zonkWith again τ t
    let r' := zonkWith again r.2 u
    (.app r.1 r'.1, r'.2)
  | .pred c t =>
    let r := zonkWith again τ t
    (.pred c r.1, r.2)
  | .forAll tvs t =>
    let r := zonkWith again τ t
    (.forAll tvs r.1, r.2)

def zonkWithin : Nat → Images → Ty → Ty × Images
  | 0, τ, t => (t, τ)
  | n + 1, τ, t => zonkWith (zonkWithin n) τ t

/-- What a type stands for; the images that were looked up are replaced by what they stand for. -/
def zonk (τ : Images) (t : Ty) : Ty × Images := zonkWithin (τ.length + 1) τ t

/-- The run of `zonk` on a type, without a bound: what the type stands for, and the images after. -/
inductive Zonks : Images → Ty → Ty → Images → Prop
  | var (τ : Images) (v : String) : Zonks τ (.var v) (.var v) τ
  | con (τ : Images) (c : Name) : Zonks τ (.con c) (.con c) τ
  | free {τ : Images} {m : UVar} (h : τ.get? m = none) : Zonks τ (.uvar m) (.uvar m) τ
  | image {τ τ' : Images} {m : UVar} {b z : Ty} (h : τ.get? m = some b) (hb : Zonks τ b z τ') :
      Zonks τ (.uvar m) z (τ'.put m z)
  | app {τ τ₁ τ₂ : Images} {t u t' u' : Ty} (ht : Zonks τ t t' τ₁) (hu : Zonks τ₁ u u' τ₂) :
      Zonks τ (.app t u) (.app t' u') τ₂
  | pred {τ τ' : Images} {c : Name} {t z : Ty} (h : Zonks τ t z τ') :
      Zonks τ (.pred c t) (.pred c z) τ'
  | forAll {τ τ' : Images} {tvs : List String} {t z : Ty} (h : Zonks τ t z τ') :
      Zonks τ (.forAll tvs t) (.forAll tvs z) τ'

/-- Every variable stands above those in its image. -/
def RankedBy (τ : Images) (rank : UVar → Nat) : Prop :=
  ∀ m t, τ.get? m = some t → ∀ k ∈ t.uvarOccurrences, rank k < rank m

/-- No chain of images comes back to where it began. -/
def Acyclic (τ : Images) : Prop := ∃ rank, (∀ m, rank m ≤ τ.length) ∧ τ.RankedBy rank

theorem Acyclic.nil : Acyclic [] := ⟨fun _ => 0, fun _ => Nat.le_refl 0, fun m t h => by cases h⟩

theorem Acyclic.induction {τ : Images} (h : τ.Acyclic) {motive : UVar → Prop}
    (step : ∀ m, (∀ t, τ.get? m = some t → ∀ k ∈ t.uvarOccurrences, motive k) → motive m)
    (m : UVar) : motive m := by
  obtain ⟨rank, -, hr⟩ := h
  have below : ∀ n m, rank m < n → motive m := by
    intro n
    induction n with
    | zero => intro m hm; omega
    | succ n ih =>
      refine fun m hn => step m fun t ht k hk => ih k ?_
      have hk := hr m t ht k hk
      omega
  exact below _ m (Nat.lt_succ_self _)

theorem imageWithin_eq {τ : Images} {rank : UVar → Nat} (h : τ.RankedBy rank) {n k : Nat}
    {m : UVar} (hn : rank m < n) (hk : rank m < k) : τ.imageWithin n m = τ.imageWithin k m := by
  induction n generalizing m k with
  | zero => omega
  | succ n ih =>
    obtain ⟨k, rfl⟩ : ∃ j, k = j + 1 := ⟨k - 1, by omega⟩
    simp only [imageWithin]
    cases hm : τ.get? m with
    | none => rfl
    | some t =>
      refine congrArg some (Ty.substUvars_congr fun v hv => ?_)
      have hv := h m t hm v hv
      rw [ih (k := k) (by omega) (by omega)]

theorem image?_eq {τ : Images} (h : τ.Acyclic) (m : UVar) :
    τ.image? m = (τ.get? m).map τ.apply := by
  obtain ⟨rank, hl, hr⟩ := h
  rw [image?, imageWithin]
  cases hm : τ.get? m with
  | none => rfl
  | some t =>
    refine congrArg some (Ty.substUvars_congr fun v hv => ?_)
    have hv := hr m t hm v hv
    rw [image?, imageWithin_eq hr (k := τ.length + 1) (Nat.lt_of_lt_of_le hv (hl m))
      (Nat.lt_succ_of_le (hl v))]

theorem image?_unique {τ : Images} (h : τ.Acyclic) {f : UVar → Option Ty}
    (hf : ∀ m, f m = (τ.get? m).map (·.substUvars f)) : τ.image? = f := by
  refine funext (h.induction fun m ih => ?_)
  rw [image?_eq h, hf]
  cases hm : τ.get? m with
  | none => rfl
  | some t => exact congrArg some (Ty.substUvars_congr fun k hk => by rw [ih t hm k hk])

theorem image?_eq_none {τ : Images} (h : τ.Acyclic) {m : UVar} :
    τ.image? m = none ↔ τ.get? m = none := by
  rw [image?_eq h, Option.map_eq_none_iff]

/-- What a variable stands for mentions variables without images only, none of them above it. -/
theorem rank_of_mem_image {τ : Images} {rank : UVar → Nat} (hl : ∀ m, rank m ≤ τ.length)
    (hr : τ.RankedBy rank) {m k : UVar} (hk : k ∈ ((τ.image? m).getD (.uvar m)).uvarOccurrences) :
    τ.get? k = none ∧ rank k ≤ rank m := by
  have h : τ.Acyclic := ⟨rank, hl, hr⟩
  induction m using h.induction with
  | step m ih =>
    rw [image?_eq h] at hk
    cases hm : τ.get? m with
    | none =>
      obtain rfl : k = m := by simpa [hm, Ty.uvarOccurrences] using hk
      exact ⟨hm, Nat.le_refl _⟩
    | some t =>
      simp only [hm, Option.map_some, Option.getD_some] at hk
      obtain ⟨v, hv, hkv⟩ := Ty.mem_uvarOccurrences_substUvars.1 hk
      have hlow := hr m t hm v hv
      have hkv := ih t hm v hv hkv
      exact ⟨hkv.1, by omega⟩

theorem get?_of_mem_apply {τ : Images} (h : τ.Acyclic) {t : Ty} {k : UVar}
    (hk : k ∈ (τ.apply t).uvarOccurrences) : τ.get? k = none := by
  obtain ⟨rank, hl, hr⟩ := h
  obtain ⟨m, -, hkm⟩ := Ty.mem_uvarOccurrences_substUvars.1 hk
  exact (rank_of_mem_image hl hr hkm).1

theorem apply_eq_self {τ : Images} (h : τ.Acyclic) {t : Ty}
    (ht : ∀ m ∈ t.uvarOccurrences, τ.get? m = none) : τ.apply t = t :=
  Ty.substUvars_eq_self fun m hm => (image?_eq_none h).2 (ht m hm)

theorem apply_apply {τ : Images} (h : τ.Acyclic) (t : Ty) : τ.apply (τ.apply t) = τ.apply t :=
  apply_eq_self h fun _ hm => get?_of_mem_apply h hm

-- Replacing images by what they stand for

/-- Putting what an image stands for in its place leaves everything as it was. -/
theorem compress {τ : Images} {rank : UVar → Nat} (hl : ∀ m, rank m ≤ τ.length)
    (hr : τ.RankedBy rank) {m : UVar} {b : Ty} (hm : τ.get? m = some b) {z : Ty}
    (hz : τ.image? m = some z) :
    (τ.put m z).RankedBy rank ∧ (τ.put m z).length = τ.length ∧ (τ.put m z).image? = τ.image? := by
  have ha : τ.Acyclic := ⟨rank, hl, hr⟩
  have hz' : τ.apply b = z := by simpa [image?_eq ha, hm] using hz
  have hranked : (τ.put m z).RankedBy rank := by
    intro n t hn k hk
    rw [Table.get?_put] at hn
    split at hn
    · next he =>
      obtain rfl : z = t := by simpa using hn
      rw [← hz'] at hk
      obtain ⟨v, hv, hkv⟩ := Ty.mem_uvarOccurrences_substUvars.1 hk
      have hle := (rank_of_mem_image hl hr hkv).2
      have hlt := hr m b hm v hv
      rw [← he]
      omega
    · exact hr n t hn k hk
  have hlen : (τ.put m z).length = τ.length := Table.length_put_of_some hm z
  refine ⟨hranked, hlen, image?_unique ⟨rank, by rwa [hlen], hranked⟩ fun n => ?_⟩
  rw [Table.get?_put]
  split
  · next he =>
    rw [← he, hz, Option.map_some]
    exact congrArg some (by rw [← hz']; exact (apply_apply ha b).symm)
  · exact image?_eq ha n

/-- `zonk` returns what the type stands for, and every type goes on to stand for the same. -/
theorem Zonks.sound {τ τ' : Images} {t z : Ty} (h : Zonks τ t z τ') {rank : UVar → Nat}
    (hl : ∀ m, rank m ≤ τ.length) (hr : τ.RankedBy rank) :
    z = τ.apply t ∧ τ'.RankedBy rank ∧ τ'.length = τ.length ∧ τ'.image? = τ.image? := by
  induction h with
  | var | con => exact ⟨rfl, hr, rfl, rfl⟩
  | free h =>
    refine ⟨?_, hr, rfl, rfl⟩
    rw [apply, Ty.substUvars, (image?_eq_none ⟨rank, hl, hr⟩).2 h]
    rfl
  | @image τ τ' m b z hm hb ih =>
    obtain ⟨rfl, hr', hlen, himage⟩ := ih hl hr
    have hz : τ.image? m = some (τ.apply b) := by rw [image?_eq ⟨rank, hl, hr⟩, hm]; rfl
    have hl' : ∀ m, rank m ≤ τ'.length := by rwa [hlen]
    obtain ⟨b', hb'⟩ : ∃ b', τ'.get? m = some b' := by
      refine Option.ne_none_iff_exists'.1 fun hn => ?_
      rw [← image?_eq_none ⟨rank, hl', hr'⟩, himage, hz] at hn
      cases hn
    obtain ⟨hr'', hlen', himage'⟩ := compress hl' hr' hb' (himage ▸ hz)
    refine ⟨?_, hr'', hlen'.trans hlen, himage'.trans himage⟩
    simp only [apply, Ty.substUvars, hz, Option.getD_some]
  | app ht hu iht ihu =>
    obtain ⟨rfl, hr₁, hlen₁, himage₁⟩ := iht hl hr
    obtain ⟨rfl, hr₂, hlen₂, himage₂⟩ := ihu (by rwa [hlen₁]) hr₁
    refine ⟨?_, hr₂, hlen₂.trans hlen₁, himage₂.trans himage₁⟩
    simp only [apply, himage₁, Ty.substUvars]
  | pred _ ih | forAll _ ih =>
    obtain ⟨rfl, h⟩ := ih hl hr
    exact ⟨rfl, h⟩

theorem Zonks.unique {τ τ' τ'' : Images} {t z z' : Ty} (h : Zonks τ t z τ')
    (h' : Zonks τ t z' τ'') : z = z' ∧ τ' = τ'' := by
  induction h generalizing z' τ'' with
  | var | con => cases h'; exact ⟨rfl, rfl⟩
  | free h =>
    cases h' with
    | free => exact ⟨rfl, rfl⟩
    | image hm => rw [h] at hm; cases hm
  | image h _ ih =>
    cases h' with
    | free hm => rw [h] at hm; cases hm
    | image hm hb =>
      obtain rfl := Option.some.inj (h.symm.trans hm)
      obtain ⟨rfl, rfl⟩ := ih hb
      exact ⟨rfl, rfl⟩
  | app _ _ iht ihu =>
    cases h' with
    | app ht hu =>
      obtain ⟨rfl, rfl⟩ := iht ht
      obtain ⟨rfl, rfl⟩ := ihu hu
      exact ⟨rfl, rfl⟩
  | pred _ ih =>
    cases h' with
    | pred h =>
      obtain ⟨rfl, rfl⟩ := ih h
      exact ⟨rfl, rfl⟩
  | forAll _ ih =>
    cases h' with
    | forAll h =>
      obtain ⟨rfl, rfl⟩ := ih h
      exact ⟨rfl, rfl⟩

theorem zonks_self {τ : Images} {t : Ty} (ht : ∀ m ∈ t.uvarOccurrences, τ.get? m = none) :
    Zonks τ t t τ := by
  induction t with
  | var v => exact .var τ v
  | uvar m => exact .free (ht m (by simp [Ty.uvarOccurrences]))
  | con c => exact .con τ c
  | app t u iht ihu =>
    simp only [Ty.uvarOccurrences, List.mem_append] at ht
    exact .app (iht fun m hm => ht m (.inl hm)) (ihu fun m hm => ht m (.inr hm))
  | pred c t ih => exact .pred (ih ht)
  | forAll tvs t ih => exact .forAll (ih ht)

theorem Zonks.unchanged {τ τ' : Images} {t z : Ty} (h : Zonks τ t z τ')
    (ht : ∀ m ∈ t.uvarOccurrences, τ.get? m = none) : z = t ∧ τ' = τ := by
  induction h with
  | var | con | free => exact ⟨rfl, rfl⟩
  | image hm => rw [ht _ (by simp [Ty.uvarOccurrences])] at hm; cases hm
  | app _ _ iht ihu =>
    simp only [Ty.uvarOccurrences, List.mem_append] at ht
    obtain ⟨rfl, rfl⟩ := iht fun m hm => ht m (.inl hm)
    obtain ⟨rfl, rfl⟩ := ihu fun m hm => ht m (.inr hm)
    exact ⟨rfl, rfl⟩
  | pred _ ih | forAll _ ih =>
    obtain ⟨rfl, rfl⟩ := ih ht
    exact ⟨rfl, rfl⟩

/-- Enough images may be looked up for the highest variable of the type. -/
theorem zonkWithin_zonks {n : Nat} {τ : Images} {t : Ty} {rank : UVar → Nat}
    (hl : ∀ m, rank m ≤ τ.length) (hr : τ.RankedBy rank)
    (ht : ∀ m ∈ t.uvarOccurrences, rank m < n) :
    Zonks τ t (zonkWithin n τ t).1 (zonkWithin n τ t).2 := by
  induction n generalizing τ t with
  | zero => exact zonks_self fun m hm => absurd (ht m hm) (Nat.not_lt_zero _)
  | succ n ih =>
    simp only [zonkWithin]
    induction t generalizing τ with
    | var v => exact .var τ v
    | con c => exact .con τ c
    | uvar m =>
      have hm := ht m (by simp [Ty.uvarOccurrences])
      simp only [zonkWith]
      split
      · next h => exact .free h
      · next b h =>
        exact .image h (ih hl hr fun k hk => by have := hr m b h k hk; omega)
    | app t u iht ihu =>
      simp only [Ty.uvarOccurrences, List.mem_append] at ht
      have h₁ := iht hl hr fun m hm => ht m (.inl hm)
      obtain ⟨-, hr₁, hlen₁, -⟩ := h₁.sound hl hr
      exact .app h₁ (ihu (by rwa [hlen₁]) hr₁ fun m hm => ht m (.inr hm))
    | pred c t ih' => exact .pred (ih' hl hr ht)
    | forAll tvs t ih' => exact .forAll (ih' hl hr ht)

theorem zonk_zonks {τ : Images} (h : τ.Acyclic) (t : Ty) : Zonks τ t (τ.zonk t).1 (τ.zonk t).2 := by
  obtain ⟨rank, hl, hr⟩ := h
  exact zonkWithin_zonks hl hr fun m _ => Nat.lt_succ_of_le (hl m)

theorem zonk_fst {τ : Images} (h : τ.Acyclic) (t : Ty) : (τ.zonk t).1 = τ.apply t := by
  obtain ⟨rank, hl, hr⟩ := id h
  exact ((zonk_zonks h t).sound hl hr).1

theorem image?_zonk {τ : Images} (h : τ.Acyclic) (t : Ty) : (τ.zonk t).2.image? = τ.image? := by
  obtain ⟨rank, hl, hr⟩ := id h
  exact ((zonk_zonks h t).sound hl hr).2.2.2

theorem Acyclic.zonk {τ : Images} (h : τ.Acyclic) (t : Ty) : (τ.zonk t).2.Acyclic := by
  obtain ⟨rank, hl, hr⟩ := id h
  obtain ⟨-, hr', hlen, -⟩ := (zonk_zonks h t).sound hl hr
  exact ⟨rank, by rwa [hlen], hr'⟩

-- Giving images

/-- A variable that had no image stands for the new one wherever it stood for itself. -/
theorem put_new {τ : Images} (h : τ.Acyclic) {m : UVar} (hm : τ.get? m = none) {t : Ty}
    (ht : ∀ k ∈ t.uvarOccurrences, τ.get? k = none) (hmt : m ∉ t.uvarOccurrences) :
    (τ.put m t).Acyclic ∧ (τ.put m t).image? = Ty.composed τ.image? (Ty.single m t) := by
  obtain ⟨rank, hl, hr⟩ := id h
  -- The new variable comes above all that still have no image, and below all others.
  let rank' k := if k = m then 1 else if τ.get? k = none then 0 else rank k + 1
  have hlen : (τ.put m t).length = τ.length + 1 := Table.length_put_of_none hm t
  have hranked : (τ.put m t).RankedBy rank' := by
    intro n u hn k hk
    rw [Table.get?_put] at hn
    split at hn
    · next he =>
      obtain rfl : t = u := by simpa using hn
      have hkm : k ≠ m := fun hkm => hmt (hkm ▸ hk)
      simp [rank', ← he, hkm, ht k hk]
    · next he =>
      have hlt := hr n u hn k hk
      have hnm : n ≠ m := fun hnm => he hnm.symm
      simp only [rank', hnm, if_false, hn, reduceCtorEq]
      split
      · omega
      · split <;> omega
  have hacyclic : (τ.put m t).Acyclic := by
    refine ⟨rank', fun k => ?_, hranked⟩
    have hk := hl k
    simp only [rank', hlen]
    split
    · omega
    · split <;> omega
  refine ⟨hacyclic, image?_unique hacyclic fun k => ?_⟩
  have hself : ∀ u : Ty, (τ.apply u).substUvars (Ty.single m t) =
      u.substUvars (Ty.composed τ.image? (Ty.single m t)) := fun u =>
    Ty.substUvars_substUvars _ _ u
  rw [Table.get?_put]
  split
  · next he =>
    have hfix : t.substUvars (Ty.composed τ.image? (Ty.single m t)) = t := by
      refine Ty.substUvars_eq_self fun k hk => ?_
      have hkm : k ≠ m := fun hkm => hmt (hkm ▸ hk)
      simp [Ty.composed, Ty.single, (image?_eq_none h).2 (ht k hk), hkm]
    simp [Ty.composed, Ty.single, ← he, (image?_eq_none h).2 hm, hfix]
  · next he =>
    have hkm : k ≠ m := fun hkm => he hkm.symm
    simp [Ty.composed, Ty.single, hkm, image?_eq h, Function.comp_def, ← hself]

theorem apply_put_new {τ : Images} (h : τ.Acyclic) {m : UVar} (hm : τ.get? m = none) {t : Ty}
    (ht : ∀ k ∈ t.uvarOccurrences, τ.get? k = none) (hmt : m ∉ t.uvarOccurrences) (u : Ty) :
    (τ.put m t).apply u = (τ.apply u).substUvars (Ty.single m t) := by
  rw [apply, (put_new h hm ht hmt).2]
  exact (Ty.substUvars_substUvars _ _ u).symm

theorem Acyclic.put_ground {τ : Images} (h : τ.Acyclic) (m : UVar) {t : Ty}
    (ht : t.uvarOccurrences = []) : (τ.put m t).Acyclic := by
  obtain ⟨rank, hl, hr⟩ := h
  refine ⟨rank, fun k => ?_, fun n u hn k hk => ?_⟩
  · have hk := hl k
    cases hm : τ.get? m with
    | none =>
      rw [Table.length_put_of_none hm]
      omega
    | some b => rwa [Table.length_put_of_some hm]
  · rw [Table.get?_put] at hn
    split at hn
    · obtain rfl : t = u := by simpa using hn
      rw [ht] at hk
      cases hk
    · exact hr n u hn k hk

end Images

end TypeLens
