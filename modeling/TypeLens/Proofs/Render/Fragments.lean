import Mathlib.Data.List.Chain
import Mathlib.Data.List.Perm.Basic
import Mathlib.Data.List.Triplewise
import TypeLens.Fragment
import TypeLens.Proofs.Source.Nesting

/-!
Sorting fragments, by a comparison that is no order. None is lost or doubled, whatever is compared.
Of two spans that only touch neither is below the other, and that is not transitive; still no
fragment is sorted behind one that it lies strictly within, if they came in the order of a tree.
-/

namespace TypeLens

namespace BinarySort

open List

variable {α : Type} (lt : α → α → Bool)

theorem run_append (keep : α → α → Bool) (last : α) (xs : List α) :
    (run keep last xs).1 ++ (run keep last xs).2 = xs := by
  induction xs generalizing last with
  | nil => rfl
  | cons x xs ih =>
    rw [run]
    split
    · simpa using ih x
    · rfl

theorem firstRun_perm (xs : List α) : ((firstRun lt xs).1 ++ (firstRun lt xs).2).Perm xs := by
  rcases xs with _ | ⟨x, _ | ⟨y, ys⟩⟩
  · exact .refl _
  · exact .refl _
  · rw [firstRun]
    dsimp only
    split
    · calc (x :: y :: (run lt y ys).1).reverse ++ (run lt y ys).2
        _ ~ x :: y :: (run lt y ys).1 ++ (run lt y ys).2 := (List.reverse_perm _).append_right _
        _ = x :: y :: ys := by rw [List.cons_append, List.cons_append, run_append]
    · rw [List.cons_append, List.cons_append, run_append]

theorem position_le (p : α) (xs : List α) (fuel : Nat) {l r : Nat} (h : l ≤ r) :
    position lt p xs fuel l r ≤ r := by
  induction fuel generalizing l r with
  | zero => exact h
  | succ fuel ih =>
    rw [position]
    split
    · dsimp only
      split
      · exact Nat.le_trans (ih (by omega)) (by omega)
      · exact ih (by omega)
    · exact h

theorem insert_perm (xs : List α) (p : α) : (insert lt xs p).Perm (p :: xs) :=
  List.perm_insertIdx p xs (position_le lt p xs xs.length (Nat.zero_le _))

theorem foldl_insert_perm (ps xs : List α) : (ps.foldl (insert lt) xs).Perm (xs ++ ps) := by
  induction ps generalizing xs with
  | nil => rw [List.foldl_nil, List.append_nil]
  | cons p ps ih =>
    calc ps.foldl (insert lt) (insert lt xs p)
      _ ~ insert lt xs p ++ ps := ih _
      _ ~ p :: xs ++ ps := (insert_perm lt xs p).append_right ps
      _ ~ xs ++ p :: ps := List.perm_middle.symm

theorem sort_perm (xs : List α) : (sort lt xs).Perm xs :=
  (foldl_insert_perm lt _ _).trans (firstRun_perm lt xs)

end BinarySort

/-- What is said of a fragment, if its span is good. -/
def Fragment.listed? (f : Fragment) : Option (Extent × String) :=
  f.span.extent.map fun e => (e, f.ty.render .never)

theorem Fragment.order_perm (fs : List Fragment) : (order fs).Perm (fs.filterMap listed?) :=
  (BinarySort.sort_perm _ fs).filterMap _

-- The innermost first

namespace BinarySort

variable {α : Type} {lt : α → α → Bool} {x p q : α} {xs done todo : List α}

/-- If `q` is below `x`, then what was read between them is below `x` too or above `q`. -/
def Between (lt : α → α → Bool) (x p q : α) : Prop := lt q x → lt p x ∨ lt q p

/-- Nothing stands behind an element that it is strictly below. -/
def Settled (lt : α → α → Bool) (xs : List α) : Prop := xs.Pairwise fun a b => lt b a → lt a b

/-- What bisection for `p` relies on. -/
def Monotone (lt : α → α → Bool) (p : α) (xs : List α) : Prop :=
  xs.Pairwise fun a b => lt p a → lt p b

/-- The elements that have been sorted, and those that are still to be inserted. -/
structure Progress (lt : α → α → Bool) (done todo : List α) : Prop where
  settled : Settled lt done
  monotone : ∀ p ∈ todo, Monotone lt p done
  between : ∀ x ∈ done, todo.Pairwise (Between lt x)
  pending : todo.Triplewise (Between lt)

-- Runs

theorem isChain_run (keep : α → α → Bool) (x : α) (xs : List α) :
    (x :: (run keep x xs).1).IsChain fun a b => keep b a := by
  induction xs generalizing x with
  | nil => exact .singleton x
  | cons y ys ih =>
    rw [run]
    split
    · next hy => exact List.isChain_cons_cons.2 ⟨hy, ih y⟩
    · exact .singleton x

/-- If no element is below the one right before it, then none is below any before it. -/
theorem pairwise_of_isChain (hbetween : xs.Triplewise (Between lt))
    (h : xs.IsChain fun a b => !lt b a) : xs.Pairwise fun a b => lt b a = false := by
  induction xs with
  | nil => exact .nil
  | cons x xs ih =>
    cases xs with
    | nil => exact List.pairwise_singleton ..
    | cons y ys =>
      obtain ⟨hxy, hys⟩ := List.isChain_cons_cons.1 h
      obtain ⟨hx, hxs⟩ := List.triplewise_cons.1 hbetween
      have hrest := ih hxs hys
      have hyx : lt y x = false := by simpa using hxy
      refine List.pairwise_cons.2 ⟨List.forall_mem_cons.2 ⟨hyx, fun z hz => ?_⟩, hrest⟩
      have hzy := List.rel_of_pairwise_cons hrest hz
      have hzx := List.rel_of_pairwise_cons hx hz
      simp only [Between, hyx, hzy] at hzx
      simpa using hzx

section

variable (htrans : ∀ a b c, lt a b → lt b c → lt a c)
include htrans

theorem progress_firstRun (h : xs.Triplewise (Between lt)) :
    Progress lt (firstRun lt xs).1 (firstRun lt xs).2 := by
  rcases xs with _ | ⟨x, _ | ⟨y, ys⟩⟩
  · exact ⟨.nil, fun _ _ => .nil, fun _ _ => .nil, .nil⟩
  · exact ⟨List.pairwise_singleton .., fun _ _ => List.pairwise_singleton .., fun _ _ => .nil, .nil⟩
  rw [firstRun]
  dsimp only
  split
  · next hyx =>
    have happend : x :: y :: ys = x :: y :: (run lt y ys).1 ++ (run lt y ys).2 := by
      rw [List.cons_append, List.cons_append, run_append]
    rw [happend, List.triplewise_append] at h
    obtain ⟨-, htodo, hbetween, -⟩ := h
    have hchain : (x :: y :: (run lt y ys).1).IsChain fun a b => lt b a :=
      List.isChain_cons_cons.2 ⟨hyx, isChain_run lt y ys⟩
    have hfalling : (x :: y :: (run lt y ys).1).reverse.Pairwise fun a b => lt a b := by
      have : Trans (fun a b => lt b a = true) (fun a b => lt b a = true)
        (fun a b => lt b a = true) := ⟨fun hab hbc => htrans _ _ _ hbc hab⟩
      exact List.pairwise_reverse.2 hchain.pairwise
    refine ⟨?_, fun p _ => ?_, fun z hz => hbetween z (List.mem_reverse.1 hz), htodo⟩
    · refine hfalling.imp ?_
      intro a b hab _
      exact hab
    · refine hfalling.imp ?_
      intro a b hab hpa
      exact htrans p a b hpa hab
  · next hyx =>
    have happend : x :: y :: ys = x :: y :: (run (fun a b => !lt a b) y ys).1 ++
        (run (fun a b => !lt a b) y ys).2 := by
      rw [List.cons_append, List.cons_append, run_append]
    rw [happend, List.triplewise_append] at h
    obtain ⟨hdone, htodo, hbetween, hlater⟩ := h
    have hrising := pairwise_of_isChain hdone
      (List.isChain_cons_cons.2 ⟨by simpa using hyx, isChain_run _ y ys⟩)
    refine ⟨hrising.imp fun hba hlt => ?_, fun p hp => ?_, hbetween, htodo⟩
    · rw [hba] at hlt
      cases hlt
    · refine (hrising.and (hlater p hp)).imp ?_
      rintro a b ⟨hba, hbtw⟩ hpa
      simpa [hba] using hbtw hpa

end

-- Insertion

/-- The place that bisection finds: nothing before it is above `p`, and all behind it is. -/
structure Cut (lt : α → α → Bool) (p : α) (xs : List α) (l r : Nat) : Prop where
  before : ∀ a ∈ xs.take l, lt p a = false
  behind : ∀ a ∈ xs.drop r, lt p a = true

theorem cut_position {fuel l r : Nat} (hmono : Monotone lt p xs) (hlr : l ≤ r)
    (hr : r ≤ xs.length) (hfuel : r - l ≤ fuel) (h : Cut lt p xs l r) :
    Cut lt p xs (position lt p xs fuel l r) (position lt p xs fuel l r) := by
  induction fuel generalizing l r with
  | zero =>
    obtain rfl : l = r := by omega
    exact h
  | succ fuel ih =>
    rw [position]
    split
    · next hlt =>
      dsimp only
      obtain ⟨m, hm⟩ : ∃ m, l + (r - l) / 2 = m := ⟨_, rfl⟩
      rw [hm]
      have hlen : m < xs.length := by omega
      have hsplit : xs.take m ++ xs[m] :: xs.drop (m + 1) = xs := by
        rw [← List.drop_eq_getElem_cons hlen, List.take_append_drop]
      rw [Monotone, ← hsplit, List.pairwise_append, List.pairwise_cons] at hmono
      obtain ⟨-, ⟨hbehind, -⟩, hbefore⟩ := hmono
      rw [List.getElem?_eq_getElem hlen, Option.any_some]
      split
      · next hpm =>
        refine ih (by omega) (by omega) (by omega) ⟨h.before, ?_⟩
        rw [List.drop_eq_getElem_cons hlen]
        exact List.forall_mem_cons.2 ⟨hpm, fun a ha => hbehind a ha hpm⟩
      · next hpm =>
        have hpm : lt p xs[m] = false := by simpa using hpm
        refine ih (by omega) hr (by omega) ⟨fun a ha => ?_, h.behind⟩
        rw [List.take_succ_eq_append_getElem hlen, List.mem_append, List.mem_singleton] at ha
        rcases ha with ha | rfl
        · cases hpa : lt p a with
          | false => rfl
          | true => exact absurd (hbefore a ha xs[m] (List.mem_cons_self ..) hpa) (by simp [hpm])
        · exact hpm
    · obtain rfl : l = r := by omega
      exact h

theorem exists_insert_eq (hmono : Monotone lt p xs) :
    ∃ ls rs, xs = ls ++ rs ∧ insert lt xs p = ls ++ p :: rs ∧
      (∀ a ∈ ls, lt p a = false) ∧ ∀ b ∈ rs, lt p b = true := by
  have hlen : xs.length - 0 ≤ xs.length := Nat.sub_le ..
  have hcut : Cut lt p xs _ _ :=
    cut_position hmono (Nat.zero_le _) (Nat.le_refl _) hlen ⟨by simp, by simp⟩
  have hle := position_le lt p xs xs.length (Nat.zero_le xs.length)
  obtain ⟨ls, rs, hxs, hlen, hinsert⟩ := List.exists_of_modifyTailIdx (List.cons p) hle
  refine ⟨ls, rs, hxs, hinsert, fun a ha => hcut.before a ?_, fun b hb => hcut.behind b ?_⟩
  · rwa [hxs, List.take_left' (hxs ▸ hlen)]
  · rwa [hxs, List.drop_left' (hxs ▸ hlen)]

section

variable (htrans : ∀ a b c, lt a b → lt b c → lt a c)
include htrans

theorem Progress.insert (h : Progress lt done (p :: todo)) :
    Progress lt (BinarySort.insert lt done p) todo := by
  obtain ⟨hp, htodo⟩ := List.forall_mem_cons.1 h.monotone
  obtain ⟨ls, rs, rfl, hinsert, hls, hrs⟩ := exists_insert_eq hp
  have hmem {a : α} (ha : a ∈ ls) : a ∈ ls ++ rs := List.mem_append_left rs ha
  obtain ⟨hnext, hpending⟩ := List.triplewise_cons.1 h.pending
  rw [hinsert]
  refine ⟨?_, fun q hq => ?_, fun x hx => ?_, hpending⟩
  · obtain ⟨hl, hr, hlr⟩ := List.pairwise_append.1 h.settled
    refine List.pairwise_append.2 ⟨hl, List.pairwise_cons.2 ⟨fun b hb _ => hrs b hb, hr⟩, ?_⟩
    refine fun a ha => List.forall_mem_cons.2 ⟨fun hpa => ?_, hlr a ha⟩
    rw [hls a ha] at hpa
    cases hpa
  · obtain ⟨hl, hr, hlr⟩ := List.pairwise_append.1 (htodo q hq)
    refine List.pairwise_append.2 ⟨hl, List.pairwise_cons.2 ⟨fun b hb hqp => ?_, hr⟩, ?_⟩
    · exact htrans q p b hqp (hrs b hb)
    · refine fun a ha => List.forall_mem_cons.2 ⟨fun hqa => ?_, hlr a ha⟩
      have hbetween := List.rel_of_pairwise_cons (h.between a (hmem ha)) hq
      simpa [hls a ha] using hbetween hqa
  · rcases List.mem_cons.1 (List.perm_middle.subset hx) with rfl | hx
    · exact hnext
    · exact (h.between x hx).of_cons

theorem Progress.foldl_insert (h : Progress lt done todo) :
    Settled lt (todo.foldl (BinarySort.insert lt) done) := by
  induction todo generalizing done with
  | nil => exact h.settled
  | cons p todo ih => exact ih (h.insert htrans)

/-- Elements between which nothing is out of place come to stand before those that they are strictly
below. -/
theorem settled_sort (h : xs.Triplewise (Between lt)) : Settled lt (sort lt xs) :=
  (progress_firstRun htrans h).foldl_insert htrans

end

end BinarySort

namespace Fragment

variable {es rest : List Fragment} {f g h : Fragment}

def Within (f g : Fragment) : Prop := f.span.within g.span

instance : DecidableRel Within := fun f g =>
  inferInstanceAs (Decidable (f.span.within g.span = true))

/-- `f` is smaller than `g`, within which it lies. -/
def StrictlyWithin (f g : Fragment) : Prop := f.Within g ∧ ¬ g.Within f

instance : DecidableRel StrictlyWithin := fun f g =>
  inferInstanceAs (Decidable (f.Within g ∧ ¬ g.Within f))

def Nested (f g : Fragment) : Prop := f.Within g ∨ g.Within f

instance : DecidableRel Nested := fun f g => inferInstanceAs (Decidable (f.Within g ∨ g.Within f))

/-- The order of a tree: a fragment comes before those strictly within it, and all between it and
one within it lie within it too. -/
structure PreOrder (es : List Fragment) : Prop where
  outerFirst : es.Pairwise fun f g => ¬ f.StrictlyWithin g
  together : es.Triplewise fun f g h => h.Within f → g.Within f

def below (f g : Fragment) : Bool := f.span.compare g.span < 0

theorem below_iff : f.below g ↔ f.Within g := by
  rw [below, Within, Span.compare]
  split <;> rename_i h
  · simp [h]
  · split <;> simp [h]

theorem below_trans (f g h : Fragment) (hfg : f.below g) (hgh : g.below h) : f.below h :=
  below_iff.2 (Span.within_trans (below_iff.1 hfg) (below_iff.1 hgh))

theorem Nested.between (hgh : g.Nested h) : BinarySort.Between below f g h := by
  intro hhf
  rcases hgh with hgh | hhg
  · exact .inl (below_trans g h f (below_iff.2 hgh) hhf)
  · exact .inr (below_iff.2 hhg)

theorem Nested.symm (hfg : f.Nested g) : g.Nested f := Or.symm hfg

theorem triplewise_between (hes : PreOrder es) (hrest : rest.Pairwise Nested)
    (hnested : ∀ r ∈ rest, ∀ e ∈ es, r.Nested e) :
    (es ++ rest).Triplewise (BinarySort.Between below) := by
  have hpairs (f : Fragment) : rest.Pairwise (BinarySort.Between below f) :=
    hrest.imp Nested.between
  have htriples : rest.Triplewise (BinarySort.Between below) := by
    clear hnested
    induction rest with
    | nil => exact .nil
    | cons r rs ih => exact .cons (hpairs r).of_cons (ih hrest.of_cons fun f => (hpairs f).of_cons)
  refine List.triplewise_append.2 ⟨?_, htriples, fun e _ => hpairs e, fun r hr => ?_⟩
  · refine hes.together.imp ?_
    intro f g h hgf hhf
    exact .inl (below_iff.2 (hgf (below_iff.1 hhf)))
  · refine List.pairwise_of_forall_mem_list ?_
    intro f _ g hg
    exact (hnested r hr g hg).symm.between

/-- Fragments come innermost first: none lies strictly within an earlier one, if some come in the
order of a tree and each of the others is nested with all there are. -/
theorem sort_innermost_first (hes : PreOrder es) (hrest : rest.Pairwise Nested)
    (hnested : ∀ r ∈ rest, ∀ e ∈ es, r.Nested e) :
    (sort (es ++ rest)).Perm (es ++ rest) ∧
      (sort (es ++ rest)).Pairwise fun f g => ¬ g.StrictlyWithin f := by
  refine ⟨BinarySort.sort_perm _ _, ?_⟩
  refine (BinarySort.settled_sort below_trans (triplewise_between hes hrest hnested)).imp ?_
  rintro f g hsettled ⟨hgf, hfg⟩
  exact hfg (below_iff.1 (hsettled (below_iff.2 hgf)))

/-- Part of the first line of a file. -/
def onLine (l r : Int) : Fragment := ⟨⟨none, some 1, some l, some 1, some r⟩, .var "a", .expression⟩

/-- Two operands that meet, each with an operand of its own there. -/
def operands : List Fragment :=
  [onLine 1 9, onLine 3 5, onLine 4 5, onLine 5 7, onLine 5 6]

/-- All of the operands, and nothing at the place where they meet. -/
def wholeAndEmpty : List Fragment := [onLine 1 9, onLine 5 5]

theorem sort_innermost_first_operands :
    PreOrder operands ∧ wholeAndEmpty.Pairwise Nested ∧
      (∀ r ∈ wholeAndEmpty, ∀ e ∈ operands, r.Nested e) ∧
        (sort (operands ++ wholeAndEmpty)).Perm (operands ++ wholeAndEmpty) ∧
          (sort (operands ++ wholeAndEmpty)).Pairwise fun f g => ¬ g.StrictlyWithin f := by
  have hes : PreOrder operands := by
    refine ⟨by decide, ?_⟩
    simp only [operands, List.triplewise_cons, List.Triplewise.nil]
    decide
  have hrest : wholeAndEmpty.Pairwise Nested := by decide
  have hnested : ∀ r ∈ wholeAndEmpty, ∀ e ∈ operands, r.Nested e := by decide
  exact ⟨hes, hrest, hnested, sort_innermost_first hes hrest hnested⟩

end Fragment

end TypeLens
