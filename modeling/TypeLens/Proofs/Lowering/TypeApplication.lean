import TypeLens.Proofs.Lowering.Types

/-!
Type arguments in two steps. The variables that are left after the first step are still quantified,
and nothing is renamed: they capture the variables of their names in the arguments of the first
step. Without such a capture the type is the same as with all arguments at once.
-/

namespace TypeLens.Ty

/-- The free rigid variables from left to right, each with the names that are bound around it. -/
def scopedVars (bound : List String) : Ty → List (String × List String)
  | .var v => if v ∈ bound then [] else [(v, bound)]
  | .uvar _ => []
  | .con _ => []
  | .app t u => t.scopedVars bound ++ u.scopedVars bound
  | .pred _ t => t.scopedVars bound
  | .forAll tvs t => t.scopedVars (bound ++ tvs)

/-- A later replacement changes nothing of what an earlier one has put in a place. -/
def Settled (f g : String → Option Ty) (p : String × List String) : Prop :=
  ∀ u ∈ f p.1, ∀ w ∈ u.varOccurrences p.2, g w = none ∨ g w = some (.var w)

/-- Two replacements one after the other are one replacement, in which the first goes before the
second. -/
theorem substVars_substVars_hide_eq_iff {f g : String → Option Ty} {bound : List String} {t : Ty} :
    (t.substVars (hide bound f)).substVars (hide bound g) =
        t.substVars (hide bound fun v => (f v).or (g v)) ↔
      ∀ p ∈ t.scopedVars bound, Settled f g p := by
  induction t generalizing bound with
  | var v =>
    by_cases hv : v ∈ bound
    · simp [substVars, scopedVars, hide, hv]
    · cases hf : f v with
      | none => simp [substVars, scopedVars, hide, hv, hf, Settled]
      | some u =>
        have himage (h : String → Option Ty) (hh : h v = some u) :
            (var v).substVars (hide bound h) = u := by
          simp [substVars, hide, hv, hh]
        rw [himage f hf, himage _ (by rw [hf]; rfl), substVars_hide_eq_self_iff]
        simp [scopedVars, hv, Settled, hf]
  | uvar m => simp [substVars, scopedVars]
  | con c => simp [substVars, scopedVars]
  | app t u iht ihu =>
    simp only [substVars, app.injEq, scopedVars, List.forall_mem_append, iht, ihu]
  | pred c t ih => simp only [substVars, pred.injEq, true_and, scopedVars, ih]
  | forAll tvs t ih =>
    simp only [substVars, forAll.injEq, true_and, scopedVars, hide_hide, ih]

theorem substVars_substVars_eq_iff {f g : String → Option Ty} {t : Ty} :
    (t.substVars f).substVars g = t.substVars (fun v => (f v).or (g v)) ↔
      ∀ p ∈ t.scopedVars [], Settled f g p :=
  @substVars_substVars_hide_eq_iff f g [] t

-- Arguments in two steps

theorem assign_of_append {xs : List String} {as : List Ty} (has : as.length = xs.length)
    (ys : List String) : assign (xs ++ ys) as = assign xs as := by
  funext v
  have happend : assign (xs ++ ys) (as ++ []) v = (assign ys [] v).or (assign xs as v) :=
    assign_append has v
  simpa [assign] using happend

theorem instantiate_forAll_append {xs ys : List String} {as : List Ty}
    (has : as.length = xs.length) (hys : ys ≠ []) (t : Ty) :
    (forAll (xs ++ ys) t).instantiate as = .ok (forAll ys (t.substVars (assign xs as))) := by
  have hlength := List.length_pos_iff.2 hys
  simp [instantiate, has, assign_of_append has, hlength]

/-- All arguments at once are those of the first step and, for the other variables, those of the
second one. -/
theorem assign_append_of_nodup {xs ys : List String} {as bs : List Ty}
    (has : as.length = xs.length) (hdistinct : (xs ++ ys).Nodup) :
    assign (xs ++ ys) (as ++ bs) = fun v => (assign xs as v).or (assign ys bs v) := by
  funext v
  rw [assign_append has]
  by_cases hv : v ∈ xs
  · have hys : v ∉ ys := fun hmem => (List.nodup_append.1 hdistinct).2.2 v hv v hmem rfl
    rw [assign_eq_none hys, Option.none_or, Option.or_none]
  · rw [assign_eq_none hv, Option.none_or, Option.or_none]

-- Capture

theorem mem_varOccurrences_iff {t : Ty} {bound : List String} {v : String} :
    v ∈ t.varOccurrences bound ↔ v ∈ t.freeVars ∧ v ∉ bound := by
  rw [freeVars, List.mem_eraseDups]
  induction t generalizing bound with
  | var w =>
    by_cases hw : w ∈ bound
    · simp only [varOccurrences, hw, if_true, List.not_mem_nil, if_false, List.mem_singleton]
      constructor
      · exact False.elim
      · rintro ⟨rfl, hv⟩
        exact hv hw
    · simp only [varOccurrences, hw, if_false, List.not_mem_nil, List.mem_singleton]
      constructor
      · rintro rfl
        exact ⟨rfl, hw⟩
      · exact And.left
  | uvar m => simp [varOccurrences]
  | con c => simp [varOccurrences]
  | app t u iht ihu =>
    simp only [varOccurrences, List.mem_append]
    rw [iht, ihu, or_and_right]
  | pred c t ih => exact ih
  | forAll tvs t ih =>
    rw [varOccurrences, varOccurrences, List.nil_append, ih, @ih tvs, List.mem_append, not_or]
    constructor
    · rintro ⟨hfree, hbound, htvs⟩
      exact ⟨⟨hfree, htvs⟩, hbound⟩
    · rintro ⟨⟨hfree, htvs⟩, hbound⟩
      exact ⟨hfree, hbound, htvs⟩

/-- At an occurrence of a variable of `xs`, a variable of the argument is one of `ys` and not hidden
by another quantifier, and it is instantiated at another type. -/
def Captured (xs ys : List String) (as bs : List Ty) (p : String × List String) : Prop :=
  ∃ a ∈ assign xs as p.1, ∃ y ∈ ys, y ∈ a.freeVars ∧ y ∉ p.2 ∧ assign ys bs y ≠ some (.var y)

theorem settled_iff_not_captured {xs ys : List String} {as bs : List Ty}
    (hbs : bs.length = ys.length) {p : String × List String} :
    Settled (assign xs as) (assign ys bs) p ↔ ¬ Captured xs ys as bs p := by
  constructor
  · rintro h ⟨a, ha, y, hy, hfree, hhidden, hne⟩
    rcases h a ha y (mem_varOccurrences_iff.2 ⟨hfree, hhidden⟩) with hnone | hself
    · obtain ⟨b, hb⟩ := exists_assign hbs hy
      rw [hb] at hnone
      cases hnone
    · exact hne hself
  · intro h a ha w hw
    obtain ⟨hfree, hhidden⟩ := mem_varOccurrences_iff.1 hw
    by_cases hys : w ∈ ys
    · exact .inr (Decidable.not_not.1 fun hne => h ⟨a, ha, w, hys, hfree, hhidden, hne⟩)
    · exact .inl (assign_eq_none hys)

/-- Type arguments may be given in two steps exactly if no variable of an argument of the first step
is captured. Both ways always give a type. -/
theorem instantiate_append_iff {xs ys : List String} {as bs : List Ty} {t : Ty}
    (has : as.length = xs.length) (hbs : bs.length = ys.length) (hys : ys ≠ [])
    (hdistinct : (xs ++ ys).Nodup) :
    ∃ u v w, (forAll (xs ++ ys) t).instantiate as = .ok u ∧ u.instantiate bs = .ok v ∧
      (forAll (xs ++ ys) t).instantiate (as ++ bs) = .ok w ∧
      (v = w ↔ ∀ p ∈ t.scopedVars [], ¬ Captured xs ys as bs p) := by
  have hboth : (as ++ bs).length = (xs ++ ys).length := by simp [has, hbs]
  refine ⟨_, _, _, instantiate_forAll_append has hys t, Core.instantiate_forAll hbs _,
    Core.instantiate_forAll hboth t, ?_⟩
  rw [assign_append_of_nodup has hdistinct, substVars_substVars_eq_iff]
  simp only [settled_iff_not_captured hbs]

/-- `forall a b. a -> forall c. b -> c`, at a list of `c` and then at `a`. -/
def nestedTy : Ty := .forAll ["a", "b"] (.fn (.var "a") (.forAll ["c"] (.fn (.var "b") (.var "c"))))

theorem instantiate_append_nested : (["a"] ++ ["b"]).Nodup ∧
    ∃ u v w, nestedTy.instantiate [.list (.var "c")] = .ok u ∧ u.instantiate [.var "a"] = .ok v ∧
      nestedTy.instantiate ([.list (.var "c")] ++ [.var "a"]) = .ok w ∧ v = w := by
  refine ⟨by decide, ?_⟩
  obtain ⟨u, v, w, hu, hv, hw, hiff⟩ := @instantiate_append_iff ["a"] ["b"] [.list (.var "c")]
    [.var "a"] (.fn (.var "a") (.forAll ["c"] (.fn (.var "b") (.var "c")))) rfl rfl (by decide)
    (by decide)
  refine ⟨u, v, w, hu, hv, hw, hiff.2 ?_⟩
  rintro p - ⟨t, ht, y, hy, hfree, -⟩
  obtain rfl := List.mem_singleton.1 hy
  obtain rfl := List.mem_singleton.1 (mem_of_assign ht)
  exact absurd hfree (by decide)

/-- `forall a b. a -> b`, at `b` and then at `Int`: the quantified `b` captures the argument. -/
theorem instantiate_captures :
    ∃ u, (forAll ["a", "b"] (fn (var "a") (var "b"))).instantiate [var "b"] = .ok u ∧
      u.instantiate [int] = .ok (fn int int) ∧
      (forAll ["a", "b"] (fn (var "a") (var "b"))).instantiate [var "b", int] =
        .ok (fn (var "b") int) ∧
      fn int int ≠ fn (var "b") int :=
  ⟨_, rfl, rfl, rfl, by decide⟩

end TypeLens.Ty
