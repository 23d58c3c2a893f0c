import TypeLens.Proofs.Unification.MostGeneral

/-!
Types in which each constructor has all its arguments. Substitution keeps them so, and so does
unification: what is made equal takes equally many arguments.
-/

namespace TypeLens

/-- How many arguments a constructor can have. -/
abbrev Arities := Name → Nat → Prop

namespace Ty

/-- A type that takes `n` arguments more; variables take none. -/
def Takes (R : Arities) : Nat → Ty → Prop
  | n, .var _ => n = 0
  | n, .uvar _ => n = 0
  | n, .con c => R c n
  | n, .app t u => t.Takes R (n + 1) ∧ u.Takes R 0
  | _, .pred _ _ => False
  | _, .forAll _ _ => False

/-- All constructors in a type have their arguments. -/
abbrev Formed (R : Arities) (t : Ty) : Prop := t.Takes R 0

variable {R : Arities}

theorem Takes.substUvars {f : UVar → Option Ty} (hf : ∀ m u, f m = some u → u.Formed R) {t : Ty}
    {n : Nat} (ht : t.Takes R n) : (t.substUvars f).Takes R n := by
  induction t generalizing n with
  | uvar m =>
    obtain rfl : n = 0 := ht
    cases h : f m with
    | none => simp [Ty.substUvars, h, Takes]
    | some u => simpa [Ty.substUvars, h] using hf m u h
  | app t u iht ihu => exact ⟨iht ht.1, ihu ht.2⟩
  | var | con => exact ht
  | pred | forAll => exact ht.elim

theorem Takes.substVars {f : String → Option Ty} (hf : ∀ v u, f v = some u → u.Formed R) {t : Ty}
    {n : Nat} (ht : t.Takes R n) : (t.substVars f).Takes R n := by
  induction t generalizing n with
  | var v =>
    obtain rfl : n = 0 := ht
    cases h : f v with
    | none => simp [Ty.substVars, h, Takes]
    | some u => simpa [Ty.substVars, h] using hf v u h
  | app t u iht ihu => exact ⟨iht ht.1, ihu ht.2⟩
  | uvar | con => exact ht
  | pred | forAll => exact ht.elim

theorem Takes.at {t : Ty} {n : Nat} (ht : t.Takes R n) (tvs : List String) {ts : List Ty}
    (hts : ∀ u ∈ ts, u.Formed R) : (t.substVars (assign tvs ts)).Takes R n :=
  ht.substVars fun _ u hu => hts u (mem_of_assign hu)

theorem takes_apps {t : Ty} {ts : List Ty} {n : Nat} :
    (apps t ts).Takes R n ↔ t.Takes R (n + ts.length) ∧ ∀ u ∈ ts, u.Formed R := by
  induction ts generalizing t with
  | nil => simp [apps]
  | cons u ts ih =>
    have happs : apps t (u :: ts) = apps (.app t u) ts := rfl
    rw [happs, ih, Takes, List.length_cons, List.forall_mem_cons, and_assoc, Nat.add_assoc]

theorem formed_conApp {c : Name} {ts : List Ty} :
    (conApp c ts).Formed R ↔ R c ts.length ∧ ∀ u ∈ ts, u.Formed R := by
  rw [conApp, Formed, takes_apps, Nat.zero_add, Takes]

end Ty

/-- The types of the language itself have their arguments. -/
structure Arities.Builtin (R : Arities) : Prop where
  fn : R Builtin.funTyCon 2
  list : R Builtin.listTyCon 1
  int : R Builtin.intTyCon 0
  string : R Builtin.stringTyCon 0
  bool : R Builtin.boolTyCon 0

namespace Ty

variable {R : Arities}

theorem Formed.of_fn {t u : Ty} (h : (fn t u).Formed R) : t.Formed R ∧ u.Formed R := ⟨h.1.2, h.2⟩

theorem Formed.of_splitFn? {t p q : Ty} (ht : t.Formed R) (h : t.splitFn? = some (p, q)) :
    p.Formed R ∧ q.Formed R := by
  rw [eq_fn_of_splitFn? h] at ht
  exact ht.of_fn

theorem Formed.splitFns {t : Ty} (ht : t.Formed R) (n : Nat) :
    (∀ u ∈ (t.splitFns n).1, u.Formed R) ∧ (t.splitFns n).2.Formed R := by
  induction n generalizing t with
  | zero => exact ⟨fun _ h => absurd h List.not_mem_nil, ht⟩
  | succ n ih =>
    unfold Ty.splitFns
    split
    · next p q h =>
      obtain ⟨hp, hq⟩ := ht.of_splitFn? h
      obtain ⟨hargs, hres⟩ := ih hq
      exact ⟨List.forall_mem_cons.2 ⟨hp, hargs⟩, hres⟩
    · exact ⟨fun _ h => absurd h List.not_mem_nil, ht⟩

variable (hR : R.Builtin)
include hR

theorem formed_fn {t u : Ty} (ht : t.Formed R) (hu : u.Formed R) : (fn t u).Formed R :=
  ⟨⟨hR.fn, ht⟩, hu⟩

theorem formed_fns {ts : List Ty} {t : Ty} (hts : ∀ u ∈ ts, u.Formed R) (ht : t.Formed R) :
    (fns ts t).Formed R := by
  induction ts with
  | nil => exact ht
  | cons u ts ih =>
    obtain ⟨hu, hts⟩ := List.forall_mem_cons.1 hts
    exact formed_fn hR hu (ih hts)

theorem formed_list {t : Ty} (ht : t.Formed R) : (list t).Formed R := ⟨hR.list, ht⟩

theorem formed_literal (v : Literal) : v.ty.Formed R := by
  cases v with
  | int => exact hR.int
  | text => exact hR.string

end Ty

namespace Images

variable {R : Arities} {τ : Images}

def Formed (R : Arities) (τ : Images) : Prop := ∀ m t, τ.image? m = some t → t.Formed R

theorem Formed.apply (hτ : τ.Formed R) {t : Ty} {n : Nat} (ht : t.Takes R n) :
    (τ.apply t).Takes R n := ht.substUvars hτ

theorem ZonksBoth.formed {τ' : Images} {t u t' u' : Ty} {n : Nat}
    (h : ZonksBoth τ t u t' u' τ') (ha : τ.Acyclic) (hτ : τ.Formed R) (ht : t.Takes R n)
    (hu : u.Takes R n) : τ'.Formed R ∧ t'.Takes R n ∧ u'.Takes R n := by
  obtain ⟨rfl, rfl, -, -, hi⟩ := h.sound ha
  refine ⟨?_, hτ.apply ht, hτ.apply hu⟩
  unfold Formed
  rwa [hi]

theorem Formed.put (ha : τ.Acyclic) (hτ : τ.Formed R) {m : UVar} (hm : τ.get? m = none)
    {t : Ty} (ht : t.Formed R) (hfree : ∀ k ∈ t.uvarOccurrences, τ.get? k = none)
    (hmt : m ∉ t.uvarOccurrences) : Formed R (τ.put m t) := by
  have hsingle (n : UVar) (v : Ty) (h : Ty.single m t n = some v) : v.Formed R := by
    unfold Ty.single at h
    split at h
    · exact Option.some.inj h ▸ ht
    · cases h
  intro k u hk
  rw [(put_new ha hm hfree hmt).2, Ty.composed] at hk
  cases hi : τ.image? k with
  | none =>
    rw [hi, Option.map_none, Option.none_or] at hk
    exact hsingle k u hk
  | some v =>
    rw [hi, Option.map_some, Option.some_or, Option.some.injEq] at hk
    rw [← hk]
    exact (hτ k v hi).substUvars hsingle

/-- The types in a mismatch have their arguments. -/
def FormedMismatch (R : Arities) : Option Mismatch → Prop
  | some (.infinite _ t) => t.Formed R
  | _ => True

theorem formed_unifyVar (ha : τ.Acyclic) (hτ : τ.Formed R) {m : UVar} (hm : τ.get? m = none)
    {t : Ty} (ht : t.Formed R) (hfree : ∀ k ∈ t.uvarOccurrences, τ.get? k = none) :
    (τ.unifyVar m t).1.Formed R ∧ FormedMismatch R (τ.unifyVar m t).2 := by
  unfold unifyVar
  split
  · exact ⟨hτ, trivial⟩
  split
  · exact ⟨hτ, ht⟩
  next hmt => exact ⟨hτ.put ha hm ht hfree hmt, trivial⟩

/-- Functions are unified with functions that take as many arguments more. -/
theorem Unifies.formed {t u : Ty} {r : Unified} (h : Unifies τ t u r) (ha : τ.Acyclic)
    (hτ : τ.Formed R) {n : Nat} (ht : t.Takes R n) (hu : u.Takes R n) :
    r.1.Formed R ∧ FormedMismatch R r.2 := by
  induction h generalizing n with
  | left h =>
    obtain ⟨hτ', hm, hu'⟩ := h.formed ha hτ ht hu
    obtain ⟨hfree, hfree'⟩ := h.get?_eq_none ha
    obtain rfl : n = 0 := hm
    exact formed_unifyVar (h.sound ha).2.2.1 hτ' (hfree _ (List.mem_singleton.2 rfl)) hu' hfree'
  | right h _ =>
    obtain ⟨hτ', ht', hm⟩ := h.formed ha hτ ht hu
    obtain ⟨hfree, hfree'⟩ := h.get?_eq_none ha
    obtain rfl : n = 0 := hm
    exact formed_unifyVar (h.sound ha).2.2.1 hτ' (hfree' _ (List.mem_singleton.2 rfl)) ht' hfree
  | var h | con h | clash h => exact ⟨(h.formed ha hτ ht hu).1, trivial⟩
  | app h hf _ ihf ihx =>
    obtain ⟨hτ', ht', hu'⟩ := h.formed ha hτ ht hu
    have ha' := (h.sound ha).2.2.1
    obtain ⟨hτ₁, -⟩ := ihf ha' hτ' ht'.1 hu'.1
    exact ihx (hf.extends_self ha').acyclic hτ₁ ht'.2 hu'.2
  | stop h _ ihf =>
    obtain ⟨hτ', ht', hu'⟩ := h.formed ha hτ ht hu
    exact ihf (h.sound ha).2.2.1 hτ' ht'.1 hu'.1

end Images

namespace Subst

variable {R : Arities} {σ : Subst}

/-- What variables stand for has its arguments. -/
def Formed (R : Arities) (σ : Subst) : Prop := σ.images.Formed R

theorem Formed.congr (hσ : σ.Formed R) {σ' : Subst} (h : σ'.image? = σ.image?) : σ'.Formed R :=
  fun m t ht => hσ m t ((congrFun h m).symm.trans ht)

theorem Formed.apply (hσ : σ.Formed R) {t : Ty} {n : Nat} (ht : t.Takes R n) :
    (σ.apply t).Takes R n := Images.Formed.apply hσ ht

theorem Formed.unify (hσ : σ.Formed R) {t u : Ty} (ht : t.Formed R) (hu : u.Formed R) :
    (σ.unify t u).1.Formed R ∧ Images.FormedMismatch R (σ.unify t u).2 :=
  (Images.unify_unifies σ.acyclic t u).formed σ.acyclic hσ ht hu

theorem Formed.fixAll (hσ : σ.Formed R) {ps : List (UVar × String)}
    (hn : (ps.map Prod.fst).Nodup) (hp : ∀ p ∈ ps, σ.image? p.1 = none) :
    (σ.fixAll ps).Formed R := by
  intro m t ht
  have hm : t = (σ.apply (.uvar m)).substUvars fun k => (ps.lookup k).map .var := by
    rw [← Subst.apply_fixAll hn hp]
    simp only [Subst.apply, Images.apply, Ty.substUvars, ht, Option.getD_some]
  have hself : (Ty.uvar m).Formed R := rfl
  rw [hm]
  refine (hσ.apply hself).substUvars fun k u hu => ?_
  obtain ⟨tv, -, rfl⟩ := Option.map_eq_some_iff.1 hu
  rfl

theorem formed_empty : Formed R .empty := fun m t h => by cases h

end Subst

end TypeLens
