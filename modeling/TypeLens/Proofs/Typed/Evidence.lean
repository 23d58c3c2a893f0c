import TypeLens.Typed.Resolve

/-!
The evidence for holes once all solutions are known.
-/

namespace TypeLens.Typed

open Answers

mutual

/-- No hole in it is unsolved. -/
def Evidence.complete : Evidence → Bool
  | .byInstance _ _ hs => Hole.allComplete hs
  | .byParam _ => true

def Hole.complete : Hole → Bool
  | .unsolved _ _ => false
  | .solved _ e => e.complete

def Hole.allComplete : List Hole → Bool
  | [] => true
  | h :: hs => h.complete && Hole.allComplete hs

end

theorem Hole.allComplete_iff {hs : List Hole} : allComplete hs ↔ ∀ h ∈ hs, h.complete := by
  induction hs with
  | nil => simp [allComplete]
  | cons h hs ih => simp [allComplete, ih]

/-- The evidence for the context of an instance. -/
def Evidence.args : Evidence → List Hole
  | .byInstance _ _ hs => hs
  | .byParam _ => []

/-- The dictionaries of an occurrence. -/
def Expr.dicts : Expr → List Hole
  | .inst _ _ ds _ => ds
  | _ => []

theorem dicts_expr (a : Answers) (e : Expr) : (a.expr e).dicts = e.dicts.map a.hole := by
  cases e <;> rfl

variable {σ : Subst}

@[simp] theorem images_ofSolutions (σ : Subst) (sols : List (Nat × Evidence)) :
    (ofSolutions σ sols).images = σ := by
  have hfold (a : Answers) :
      (sols.foldl (fun a p => (⟨a.images, (p.1, a.evidenceOf p.2) :: a.evidence⟩ : Answers))
        a).images = a.images := by
    induction sols generalizing a with
    | nil => rfl
    | cons p sols ih => exact ih _
  exact hfold ⟨σ, []⟩

/-- What was found before the last solution does not change what is known of later holes. -/
theorem ofSolutions_concat (later : List (Nat × Evidence)) (p : Nat × Evidence) :
    ofSolutions σ (later ++ [p]) = ⟨σ, (p.1, (ofSolutions σ later).evidenceOf p.2) ::
      (ofSolutions σ later).evidence⟩ := by
  rw [ofSolutions, List.foldl_append]
  exact congrArg (Answers.mk · _) (images_ofSolutions σ later)

theorem get?_ofSolutions_append {v : Nat} {earlier : List (Nat × Evidence)}
    (hv : v ∉ earlier.map Prod.fst) (later : List (Nat × Evidence)) :
    (ofSolutions σ (later ++ earlier)).evidence.get? v =
      (ofSolutions σ later).evidence.get? v := by
  induction earlier generalizing later with
  | nil => rw [List.append_nil]
  | cons p earlier ih =>
    have hne : ¬ p.1 = v := fun h => hv (h ▸ List.mem_cons_self ..)
    have hrest : v ∉ earlier.map Prod.fst := fun h => hv (List.mem_cons_of_mem _ h)
    rw [List.append_cons, ih hrest, ofSolutions_concat]
    exact if_neg hne

/-- The evidence for a hole with a solution. -/
theorem get?_ofSolutions {v : Nat} {e : Evidence} {earlier : List (Nat × Evidence)}
    (hv : v ∉ earlier.map Prod.fst) (later : List (Nat × Evidence)) :
    (ofSolutions σ (later ++ (v, e) :: earlier)).evidence.get? v =
      some ((ofSolutions σ later).evidenceOf e) := by
  rw [List.append_cons, get?_ofSolutions_append hv, ofSolutions_concat]
  exact if_pos rfl

/-- A hole is filled with complete evidence if all that its solution refers to was solved after
it. -/
theorem complete_of_ordered {sols : List (Nat × Evidence)} (hnodup : (sols.map Prod.fst).Nodup)
    (hordered : sols.Pairwise fun later earlier => ∀ q, .unsolved earlier.1 q ∉ later.2.args)
    (hargs : ∀ p ∈ sols, ∀ d ∈ p.2.args,
      ∃ v q, d = .unsolved v q ∧ v ≠ p.1 ∧ v ∈ sols.map Prod.fst)
    {v : Nat} (hv : v ∈ sols.map Prod.fst) :
    ∃ e, (ofSolutions σ sols).evidence.get? v = some e ∧ e.complete := by
  have hfresh {later earlier : List (Nat × Evidence)} {p : Nat × Evidence}
      (h : sols = later ++ p :: earlier) : p.1 ∉ earlier.map Prod.fst := by
    rw [h, List.map_append, List.map_cons] at hnodup
    exact (List.nodup_cons.1 (List.nodup_append.1 hnodup).2.1).1
  -- By induction on what was solved later.
  have hcomplete (n : Nat) : ∀ later p earlier, sols = later ++ p :: earlier → later.length < n →
      ((ofSolutions σ later).evidenceOf p.2).complete := by
    induction n with
    | zero => exact fun _ _ _ _ h => absurd h (Nat.not_lt_zero _)
    | succ n ih =>
      rintro later ⟨v, e⟩ earlier hsols hlen
      cases e with
      | byParam d => rfl
      | byInstance i ts hs =>
        refine Hole.allComplete_iff.2 fun h hh => ?_
        obtain ⟨d, hd, rfl⟩ := List.mem_map.1 hh
        have hmem : (v, .byInstance i ts hs) ∈ sols := by simp [hsols]
        obtain ⟨u, q, rfl, hne, hu⟩ := hargs _ hmem d hd
        have hlater : u ∈ later.map Prod.fst := by
          rw [hsols, List.pairwise_append, List.pairwise_cons] at hordered
          rw [hsols, List.map_append, List.map_cons, List.mem_append, List.mem_cons] at hu
          refine hu.resolve_right fun hu => hu.elim hne fun hu => ?_
          obtain ⟨p, hp, rfl⟩ := List.mem_map.1 hu
          exact hordered.2.1.1 p hp q hd
        obtain ⟨p, hp, rfl⟩ := List.mem_map.1 hlater
        obtain ⟨later', mid, rfl⟩ := List.append_of_mem hp
        have hsplit : sols = later' ++ p :: (mid ++ (v, .byInstance i ts hs) :: earlier) := by
          rw [hsols, List.append_assoc, List.cons_append]
        have hmid : p.1 ∉ mid.map Prod.fst := fun h => hfresh hsplit (by simp [h])
        have hlen' : later'.length < n := by
          rw [List.length_append, List.length_cons] at hlen
          omega
        rw [Answers.hole, get?_ofSolutions hmid later']
        exact ih later' p _ hsplit hlen'
  obtain ⟨p, hp, rfl⟩ := List.mem_map.1 hv
  obtain ⟨later, earlier, hsols⟩ := List.append_of_mem hp
  refine ⟨_, hsols ▸ get?_ofSolutions (hfresh hsols) later, ?_⟩
  exact hcomplete _ later p earlier hsols (Nat.lt_succ_self _)

end TypeLens.Typed
