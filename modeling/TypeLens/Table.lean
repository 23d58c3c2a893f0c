/-!
Finite maps that remember the order in which their keys came.
-/

namespace TypeLens

/-- Keys with their values; a key stands once, where it was first put. -/
abbrev Table (κ α : Type) := List (κ × α)

namespace Table

variable {κ α : Type} [DecidableEq κ]

def get? (k : κ) : Table κ α → Option α
  | [] => none
  | (k', a) :: t => if k' = k then some a else get? k t

/-- A key that is there keeps its place and takes the new value; a new key goes last. -/
def put (k : κ) (a : α) : Table κ α → Table κ α
  | [] => [(k, a)]
  | (k', a') :: t => if k' = k then (k, a) :: t else (k', a') :: put k a t

def contains (k : κ) (t : Table κ α) : Bool := (t.get? k).isSome

omit [DecidableEq κ] in
def keys (t : Table κ α) : List κ := t.map Prod.fst

omit [DecidableEq κ] in
def values (t : Table κ α) : List α := t.map Prod.snd

/-- All pairs of the second table put into the first, in order. -/
def putAll (t s : Table κ α) : Table κ α := s.foldl (fun t p => t.put p.1 p.2) t

@[simp] theorem get?_put_self (k : κ) (a : α) (t : Table κ α) :
    (t.put k a).get? k = some a := by
  induction t with
  | nil => simp [put, get?]
  | cons p t ih => by_cases h : p.1 = k <;> simp [put, get?, h, ih]

theorem get?_put_of_ne {k k' : κ} (h : k' ≠ k) (a : α) (t : Table κ α) :
    (t.put k' a).get? k = t.get? k := by
  induction t with
  | nil => simp [put, get?, h]
  | cons p t ih =>
    obtain ⟨c, b⟩ := p
    by_cases hp : c = k'
    · subst hp; simp [put, get?, h]
    · simp [put, get?, hp, ih]

theorem get?_put (k k' : κ) (a : α) (t : Table κ α) :
    (t.put k' a).get? k = if k' = k then some a else t.get? k := by
  split
  · next h => rw [h, get?_put_self]
  · next h => exact get?_put_of_ne h a t

theorem get?_eq_none_iff {k : κ} {t : Table κ α} : t.get? k = none ↔ k ∉ t.keys := by
  induction t with
  | nil => simp [get?, keys]
  | cons p t ih =>
    obtain ⟨c, b⟩ := p
    by_cases hc : c = k
    · simp [get?, keys, hc]
    · have hk : ¬ k = c := fun h => hc h.symm
      simp only [keys, List.map_cons, List.mem_cons, not_or] at ih ⊢
      simp [get?, hc, hk, ih]

theorem mem_of_get? {k : κ} {a : α} {t : Table κ α} (h : t.get? k = some a) : (k, a) ∈ t := by
  induction t with
  | nil => simp [get?] at h
  | cons p t ih =>
    obtain ⟨c, b⟩ := p
    by_cases hc : c = k
    · simp only [get?, hc, if_true, Option.some.injEq] at h
      rw [hc, h]
      exact List.mem_cons_self ..
    · simp only [get?, hc, if_false] at h
      exact List.mem_cons_of_mem _ (ih h)

theorem contains_put {k k' : κ} {a : α} {t : Table κ α} :
    (t.put k' a).contains k = true ↔ k' = k ∨ t.contains k = true := by
  rw [contains, contains, get?_put]
  split
  · next h => simp [h]
  · next h => simp [h]

theorem put_of_none {k : κ} {t : Table κ α} (h : t.get? k = none) (a : α) :
    t.put k a = t ++ [(k, a)] := by
  induction t with
  | nil => rfl
  | cons p t ih =>
    obtain ⟨c, d⟩ := p
    by_cases hc : c = k
    · simp [get?, hc] at h
    · simp only [get?, hc, if_false] at h
      simp [put, hc, ih h]

theorem forall_mem_put {t : Table κ α} {P : κ × α → Prop} (h : ∀ p ∈ t, P p) {k : κ} {a : α}
    (ha : P (k, a)) : ∀ p ∈ t.put k a, P p := by
  induction t with
  | nil => exact List.forall_mem_singleton.2 ha
  | cons p t ih =>
    obtain ⟨hp, ht⟩ := List.forall_mem_cons.1 h
    unfold put
    split
    · exact List.forall_mem_cons.2 ⟨ha, ht⟩
    · exact List.forall_mem_cons.2 ⟨hp, ih ht⟩

theorem length_put_of_some {k : κ} {b : α} {t : Table κ α} (h : t.get? k = some b) (a : α) :
    (t.put k a).length = t.length := by
  induction t with
  | nil => simp [get?] at h
  | cons p t ih =>
    obtain ⟨c, d⟩ := p
    by_cases hc : c = k
    · simp [put, hc]
    · simp only [get?, hc, if_false] at h
      simp [put, hc, ih h]

theorem length_put_of_none {k : κ} {t : Table κ α} (h : t.get? k = none) (a : α) :
    (t.put k a).length = t.length + 1 := by
  induction t with
  | nil => rfl
  | cons p t ih =>
    obtain ⟨c, d⟩ := p
    by_cases hc : c = k
    · simp [get?, hc] at h
    · simp only [get?, hc, if_false] at h
      simp [put, hc, ih h]

theorem eq_or_of_get?_put {k k' : κ} {a b : α} {t : Table κ α}
    (h : (t.put k a).get? k' = some b) : (k = k' ∧ a = b) ∨ k ≠ k' ∧ t.get? k' = some b := by
  rw [get?_put] at h
  split at h
  · next hk => exact .inl ⟨hk, Option.some.inj h⟩
  · next hk => exact .inr ⟨hk, h⟩

theorem mem_keys_iff {k : κ} {t : Table κ α} : k ∈ t.keys ↔ t.contains k = true := by
  rw [contains, Option.isSome_iff_ne_none, Ne, get?_eq_none_iff, Classical.not_not]

theorem nodup_put {t : Table κ α} (h : t.keys.Nodup) (k : κ) (a : α) : (t.put k a).keys.Nodup := by
  induction t with
  | nil => exact List.nodup_cons.2 ⟨List.not_mem_nil, List.nodup_nil⟩
  | cons p t ih =>
    obtain ⟨hp, ht⟩ := List.nodup_cons.1 h
    unfold put
    split
    · next hk => exact List.nodup_cons.2 ⟨hk ▸ hp, ht⟩
    · next hk =>
      refine List.nodup_cons.2 ⟨fun hmem => ?_, ih ht⟩
      rcases contains_put.1 (mem_keys_iff.1 hmem) with heq | hmem
      · exact hk heq.symm
      · exact hp (mem_keys_iff.2 hmem)

/-- If keys stand once, all pairs are found. -/
theorem get?_of_mem {t : Table κ α} {k : κ} {a : α} (hnodup : t.keys.Nodup) (h : (k, a) ∈ t) :
    t.get? k = some a := by
  induction t with
  | nil => cases h
  | cons p t ih =>
    obtain ⟨k', a'⟩ := p
    obtain ⟨hnot, hnodup⟩ := List.nodup_cons.1 hnodup
    rw [get?]
    rcases List.mem_cons.1 h with heq | h
    · cases heq
      exact if_pos rfl
    · have hne : k' ≠ k := fun hk => hnot (List.mem_map.2 ⟨_, h, hk.symm⟩)
      rw [if_neg hne]
      exact ih hnodup h

end Table

end TypeLens
