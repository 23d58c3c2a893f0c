import Mathlib.Data.List.Nodup
import Mathlib.Data.List.Perm.Subperm
import TypeLens.Check.Infer

/-!
The supply of names for type variables never runs out and never repeats a name.
-/

namespace TypeLens.Check

theorem toList_toString (n : Nat) : (toString n).toList = Nat.toDigits 10 n := by
  rw [show toString n = n.repr from rfl, Nat.repr_eq_ofList_toDigits, String.toList_ofList]

theorem toDigits_injective : Function.Injective (Nat.toDigits 10) := by
  intro m n h
  rw [← Nat.ofDigitChars_toDigits (b := 10) (n := m) (by omega) (by omega), h,
    Nat.ofDigitChars_toDigits (by omega) (by omega)]

theorem tyvarName_injective : Function.Injective tyvarName := by
  intro i j h
  have hletter : ∀ m < 26, ∀ n < 26,
      Char.ofNat ('a'.toNat + m) = Char.ofNat ('a'.toNat + n) → m = n := by decide
  have hlist := congrArg String.toList h
  simp only [tyvarName, String.toList_append, String.toList_singleton, List.singleton_append,
    List.cons.injEq] at hlist
  obtain ⟨hchar, hrest⟩ := hlist
  have hmod : i % 26 = j % 26 :=
    hletter _ (Nat.mod_lt _ (by omega)) _ (Nat.mod_lt _ (by omega)) hchar
  by_cases hi : i < 26 <;> by_cases hj : j < 26
  · omega
  · rw [if_pos hi, if_neg hj, toList_toString] at hrest
    exact absurd hrest.symm Nat.toDigits_ne_nil
  · rw [if_neg hi, if_pos hj, toList_toString] at hrest
    exact absurd hrest Nat.toDigits_ne_nil
  · rw [if_neg hi, if_neg hj, toList_toString, toList_toString] at hrest
    have hdiv : i / 26 = j / 26 := toDigits_injective hrest
    omega

/-- Names of which none is taken, more than are asked for. -/
def freeNames (taken : List String) (n : Nat) : List String :=
  ((List.range (n + taken.length)).map tyvarName).filter (· ∉ taken)

theorem freshTyvars_eq (taken : List String) (n : Nat) :
    freshTyvars taken n = (freeNames taken n).take n := rfl

theorem nodup_range_tyvarName (n : Nat) : ((List.range n).map tyvarName).Nodup :=
  List.nodup_range.map tyvarName_injective

theorem nodup_freshTyvars (taken : List String) (n : Nat) : (freshTyvars taken n).Nodup := by
  have hfree : (freeNames taken n).Nodup := (nodup_range_tyvarName _).filter _
  exact hfree.sublist (List.take_sublist n _)

theorem not_mem_of_mem_freshTyvars {taken : List String} {n : Nat} {v : String}
    (h : v ∈ freshTyvars taken n) : v ∉ taken := by
  have hfree := List.mem_of_mem_take h
  simpa using (List.mem_filter.1 hfree).2

/-- At most as many names are left out as are taken. -/
theorem length_freshTyvars (taken : List String) (n : Nat) : (freshTyvars taken n).length = n := by
  let names := (List.range (n + taken.length)).map tyvarName
  have hsplit : (names.filter (· ∉ taken)).length + (names.filter (· ∈ taken)).length =
      n + taken.length := by
    have hlen : names.length = n + taken.length := by simp [names]
    rw [← hlen, List.length_eq_length_filter_add (l := names) (· ∉ taken)]
    simp
  have htaken : (names.filter (· ∈ taken)).length ≤ taken.length := by
    have hnodup : (names.filter (· ∈ taken)).Nodup := (nodup_range_tyvarName _).filter _
    have hsub : names.filter (· ∈ taken) ⊆ taken := fun v hv => by
      simpa using (List.mem_filter.1 hv).2
    exact (List.subperm_of_subset hnodup hsub).length_le
  have hfree : n ≤ (freeNames taken n).length := by
    have hn : (freeNames taken n).length = (names.filter (· ∉ taken)).length := rfl
    omega
  rw [freshTyvars_eq, List.length_take]
  omega

end TypeLens.Check
