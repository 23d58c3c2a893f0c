import Mathlib.Data.List.Chain
import Mathlib.Data.List.Perm.Subperm
import TypeLens.Proofs.Graph.Components

/-!
A search that finds no cycle has seen a graph without cycles, and of such a graph the order in which
a search leaves the nodes puts each after those it leads to.
-/

namespace TypeLens.Graph

variable {α : Type} {next : α → List α}

/-- A path of at least one step leads from the node back to it. -/
def OnCycle (next : α → List α) (v : α) : Prop :=
  Relation.TransGen (fun v w => w ∈ next v) v v

/-- Nodes with an edge from each to the one after it, where the last one is the first again and no
other stands twice. -/
def IsCycle (next : α → List α) (c : List α) : Prop :=
  c.IsChain (fun v w => w ∈ next v) ∧ ∃ v p, c = v :: p ++ [v] ∧ (v :: p).Nodup

theorem IsCycle.exists_onCycle {c : List α} (h : IsCycle next c) : ∃ v, OnCycle next v := by
  obtain ⟨hedges, v, p, rfl, -⟩ := h
  have hpaths : (v :: p ++ [v]).IsChain (Relation.TransGen fun v w => w ∈ next v) :=
    hedges.imp fun _ _ => .single
  exact ⟨v, List.rel_of_pairwise_cons hpaths.pairwise (by simp)⟩

/-- The state of a hunt without success: what was entered and is not on the path leads to nothing
else, and is on no cycle. -/
structure Hunted (next : α → List α) (nodes path : List α) (s : Hunt α) : Prop where
  nodup : path.Nodup
  inside : path ⊆ nodes
  entered : path ⊆ s.entered
  closed : ∀ v ∈ s.entered, v ∉ path → ∀ w ∈ next v, w ∈ s.entered ∧ w ∉ path
  acyclic : ∀ v ∈ s.entered, v ∉ path → ¬ OnCycle next v

variable {nodes path : List α} {s : Hunt α} {v : α}

namespace Hunted

theorem leads (h : Hunted next nodes path s) {w : α} (hlead : Leads next v w)
    (hv : v ∈ s.entered ∧ v ∉ path) : w ∈ s.entered ∧ w ∉ path := by
  induction hlead with
  | refl => exact hv
  | tail _ hstep ih => exact h.closed _ ih.1 ih.2 _ hstep

theorem enter (h : Hunted next nodes path s) (hv : v ∉ s.entered) (hn : v ∈ nodes) :
    Hunted next nodes (v :: path) { s with entered := v :: s.entered } := by
  have hold {u : α} (hu : u ∈ v :: s.entered) (hpath : u ∉ v :: path) :
      u ∈ s.entered ∧ u ∉ path := by
    rw [List.mem_cons, not_or] at hpath
    exact ⟨(List.mem_cons.1 hu).resolve_left hpath.1, hpath.2⟩
  refine ⟨List.nodup_cons.2 ⟨fun hpath => hv (h.entered hpath), h.nodup⟩,
    List.cons_subset.2 ⟨hn, h.inside⟩, List.cons_subset_cons v h.entered, ?_, ?_⟩
  · intro u hu hpath w hw
    obtain ⟨hu, hpath⟩ := hold hu hpath
    obtain ⟨hentered, hnot⟩ := h.closed u hu hpath w hw
    refine ⟨List.mem_cons_of_mem v hentered, ?_⟩
    rw [List.mem_cons, not_or]
    exact ⟨fun hwv => hv (hwv ▸ hentered), hnot⟩
  · intro u hu hpath
    obtain ⟨hu, hpath⟩ := hold hu hpath
    exact h.acyclic u hu hpath

/-- A node whose successors are all done is done itself. -/
theorem leave (h : Hunted next nodes (v :: path) s)
    (hnext : ∀ w ∈ next v, w ∈ s.entered ∧ w ∉ v :: path) : Hunted next nodes path s := by
  have hdone {w : α} (hw : w ∈ s.entered ∧ w ∉ v :: path) : w ∈ s.entered ∧ w ∉ path :=
    ⟨hw.1, fun hpath => hw.2 (List.mem_cons_of_mem v hpath)⟩
  have hsplit {u : α} (hpath : u ∉ path) : u = v ∨ u ∉ v :: path := by
    by_cases huv : u = v
    · exact .inl huv
    · exact .inr fun hu => (List.mem_cons.1 hu).elim huv hpath
  refine ⟨h.nodup.of_cons, (List.cons_subset.1 h.inside).2, (List.cons_subset.1 h.entered).2,
    fun u hu hpath w hw => ?_, fun u hu hpath => ?_⟩
  · rcases hsplit hpath with rfl | hpath
    · exact hdone (hnext w hw)
    · exact hdone (h.closed u hu hpath w hw)
  · rcases hsplit hpath with rfl | hpath
    · intro hcycle
      obtain ⟨w, hw, hback⟩ := Relation.TransGen.head'_iff.1 hcycle
      exact (h.leads hback (hnext w hw)).2 (List.mem_cons_self ..)
    · exact h.acyclic u hu hpath

end Hunted

/-- A path to `v` without repetition, its last node first. -/
structure Trail (next : α → List α) (path : List α) (v : α) : Prop where
  nodup : path.Nodup
  edges : (v :: path).IsChain fun w u => w ∈ next u

theorem Trail.cons {w : α} (h : Trail next path v) (hv : v ∉ path) (hw : w ∈ next v) :
    Trail next (v :: path) w :=
  ⟨List.nodup_cons.2 ⟨hv, h.nodup⟩, List.isChain_cons_cons.2 ⟨hw, h.edges⟩⟩

variable [DecidableEq α]

theorem hunt_of_isSome {fuel : Nat} (h : s.cycle.isSome) : hunt next fuel path s v = s := by
  cases fuel with
  | zero => rfl
  | succ fuel => rw [hunt, if_pos h]

/-- A hunt from `roots` that has no success. -/
structure Missed (next : α → List α) (nodes path roots : List α) (s r : Hunt α) : Prop where
  hunted : Hunted next nodes path r
  entered : s.entered ⊆ r.entered
  roots : ∀ v ∈ roots, v ∈ r.entered ∧ v ∉ path

omit [DecidableEq α] in
theorem missed_foldl {step : Hunt α → α → Hunt α} {roots : List α}
    (hkeep : ∀ s v, s.cycle.isSome → step s v = s)
    (hstep : ∀ s, Hunted next nodes path s → ∀ v ∈ roots, (step s v).cycle = none →
      Missed next nodes path [v] s (step s v))
    (h : Hunted next nodes path s) (hnone : (roots.foldl step s).cycle = none) :
    Missed next nodes path roots s (roots.foldl step s) := by
  induction roots generalizing s with
  | nil => exact ⟨h, List.Subset.refl _, fun v hv => absurd hv List.not_mem_nil⟩
  | cons v roots ih =>
    have hstay : ∀ (vs : List α) (s : Hunt α), s.cycle.isSome → vs.foldl step s = s := by
      intro vs
      induction vs with
      | nil => exact fun _ _ => rfl
      | cons u us ihu =>
        intro s hs
        rw [List.foldl_cons, hkeep s u hs]
        exact ihu s hs
    have hfirst : (step s v).cycle = none := by
      cases hc : (step s v).cycle with
      | none => rfl
      | some c =>
        have hsome : (step s v).cycle.isSome := by rw [hc]; rfl
        rw [List.foldl_cons, hstay roots _ hsome, hc] at hnone
        cases hnone
    have hv := hstep s h v (List.mem_cons_self ..) hfirst
    have hrest := ih (fun s hs u hu => hstep s hs u (List.mem_cons_of_mem v hu)) hv.hunted hnone
    refine ⟨hrest.hunted, fun u hu => hrest.entered (hv.entered hu), ?_⟩
    refine List.forall_mem_cons.2 ⟨?_, hrest.roots⟩
    obtain ⟨hmem, hpath⟩ := hv.roots v (List.mem_singleton_self v)
    exact ⟨hrest.entered hmem, hpath⟩

theorem Trail.isCycle_closing (h : Trail next path v) (hv : v ∈ path) :
    IsCycle next (closing path v) := by
  obtain ⟨before, after, rfl, hbefore⟩ := List.eq_append_cons_of_mem hv
  have htake : (before ++ v :: after).takeWhile (· ≠ v) = before := by
    rw [List.takeWhile_append_of_pos, List.takeWhile_cons_of_neg, List.append_nil]
    · simp
    · intro u hu
      simpa using fun huv : u = v => hbefore (huv ▸ hu)
  rw [closing, htake]
  refine ⟨?_, v, before.reverse, rfl, ?_⟩
  · have hprefix : v :: before ++ [v] <+: v :: (before ++ v :: after) := ⟨after, by simp⟩
    have hedges := h.edges.prefix hprefix
    rw [← List.isChain_reverse] at hedges
    simpa using hedges
  · rw [List.nodup_cons, List.mem_reverse, List.nodup_reverse]
    exact ⟨hbefore, (List.nodup_append.1 h.nodup).1⟩

theorem isCycle_of_hunt {fuel : Nat} {c : List α} (h : Trail next path v)
    (hs : ∀ c, s.cycle = some c → IsCycle next c)
    (hc : (hunt next fuel path s v).cycle = some c) : IsCycle next c := by
  induction fuel generalizing path s v c with
  | zero => exact hs c hc
  | succ fuel ih =>
    unfold hunt at hc
    split at hc
    · exact hs c hc
    split at hc
    · next hmem =>
      cases hc
      exact h.isCycle_closing hmem
    next hpath =>
    split at hc
    · exact hs c hc
    refine List.foldlRecOn (motive := fun s : Hunt α => ∀ c, s.cycle = some c → IsCycle next c)
      (next v) _ (b := { s with entered := v :: s.entered }) hs (fun s hs w hw c hc => ?_) c hc
    exact ih (h.cons hpath hw) hs hc

theorem isCycle_of_findCycle {c : List α} (h : findCycle next nodes = some c) :
    IsCycle next c := by
  refine List.foldlRecOn (motive := fun s : Hunt α => ∀ c, s.cycle = some c → IsCycle next c)
    nodes _ (by simp) (fun s hs v _ c hc => ?_) c h
  exact isCycle_of_hunt ⟨List.nodup_nil, List.isChain_singleton v⟩ hs hc

theorem exists_onCycle_of_findCycle (h : (findCycle next nodes).isSome) :
    ∃ w, OnCycle next w := by
  obtain ⟨c, hc⟩ := Option.isSome_iff_exists.1 h
  exact (isCycle_of_findCycle hc).exists_onCycle

variable (hclosed : ∀ v ∈ nodes, next v ⊆ nodes)
include hclosed

theorem missed_hunt {fuel : Nat} {path : List α} {s : Hunt α} {v : α}
    (h : Hunted next nodes path s) (hfuel : nodes.length < path.length + fuel) (hn : v ∈ nodes)
    (hnone : (hunt next fuel path s v).cycle = none) :
    Missed next nodes path [v] s (hunt next fuel path s v) := by
  induction fuel generalizing path s v with
  | zero =>
    -- A path without repetition is not longer than all nodes together.
    have hlen := (List.subperm_of_subset h.nodup h.inside).length_le
    omega
  | succ fuel ih =>
    unfold hunt at hnone ⊢
    split at hnone
    · next hs => simp [hnone] at hs
    split at hnone
    · cases hnone
    next hs hpath =>
    rw [if_neg hs, if_neg hpath]
    split at hnone
    · next hv =>
      rw [if_pos hv]
      exact ⟨h, List.Subset.refl _, by simpa using ⟨hv, hpath⟩⟩
    · next hv =>
      rw [if_neg hv]
      have hfold := missed_foldl (fun _ _ => hunt_of_isSome)
        (fun s hs w hw hnone => ih hs (by simp only [List.length_cons]; omega)
          (hclosed v hn hw) hnone) (h.enter hv hn) hnone
      have hentered : v :: s.entered ⊆ _ := hfold.entered
      refine ⟨hfold.hunted.leave hfold.roots, (List.cons_subset.1 hentered).2, ?_⟩
      exact List.forall_mem_singleton.2 ⟨(List.cons_subset.1 hentered).1, hpath⟩

/-- A hunt is never deeper than the number of nodes. -/
theorem hunt_of_lt {fuel : Nat} {path : List α} {s : Hunt α} {v : α} (hnodup : path.Nodup)
    (hinside : path ⊆ nodes) (hv : v ∈ nodes) (hfuel : nodes.length < path.length + fuel) :
    hunt next (fuel + 1) path s v = hunt next fuel path s v := by
  induction fuel generalizing path s v with
  | zero =>
    have hlen := (List.subperm_of_subset hnodup hinside).length_le
    omega
  | succ fuel ih =>
    rw [hunt.eq_def _ _ path, hunt.eq_def _ _ path]
    dsimp only
    by_cases hpath : v ∈ path
    · rw [if_pos hpath, if_pos hpath]
    · have hfold := List.foldl_ext (hunt next (fuel + 1) (v :: path)) (hunt next fuel (v :: path))
        { s with entered := v :: s.entered } (l := next v) fun s w hw =>
          ih (List.nodup_cons.2 ⟨hpath, hnodup⟩) (List.cons_subset.2 ⟨hv, hinside⟩)
            (hclosed v hv hw) (by rw [List.length_cons]; omega)
      rw [hfold]

theorem findCycle_of_lt {fuel : Nat} (hfuel : nodes.length < fuel) :
    (nodes.foldl (hunt next fuel []) {}).cycle = findCycle next nodes := by
  induction fuel, hfuel using Nat.le_induction with
  | base => rfl
  | succ fuel hfuel ih =>
    rw [← ih]
    congr 1
    refine List.foldl_ext _ _ _ fun s v hv => ?_
    apply hunt_of_lt hclosed List.nodup_nil (List.nil_subset _) hv
    simpa using Nat.lt_of_succ_le hfuel

theorem not_onCycle_of_findCycle (h : findCycle next nodes = none) :
    ∀ v ∈ nodes, ¬ OnCycle next v := by
  have hstart : Hunted next nodes [] ({} : Hunt α) :=
    ⟨List.nodup_nil, List.nil_subset _, List.nil_subset _, by simp, by simp⟩
  have hall := missed_foldl (fun _ _ => hunt_of_isSome)
    (fun s hs v hv hnone => missed_hunt hclosed hs (by simp) hv hnone) hstart h
  intro v hv
  obtain ⟨hentered, hpath⟩ := hall.roots v hv
  exact hall.hunted.acyclic v hentered hpath

theorem mem_before_of_finishOrder {roots : List α} (hroots : roots ⊆ nodes)
    (hacyclic : ∀ v ∈ nodes, ¬ OnCycle next v) {pre post : List α}
    (h : finishOrder next nodes.length roots = pre ++ v :: post) {w : α} (hw : w ∈ next v) :
    w ∈ pre := by
  obtain ⟨hs, -⟩ := found_finishOrder hclosed hroots
  have hmem : v ∈ finishOrder next nodes.length roots := h ▸ by simp
  have hv : v ∈ nodes := by
    obtain ⟨u, hu, hlead⟩ := (mem_finishOrder hclosed hroots).1 hmem
    exact mem_of_leads hclosed (hroots hu) hlead
  have hno : ¬ Leads next w v := fun hback => hacyclic v hv (.head' hw hback)
  cases hs.edges pre v post h w hw with
  | before hpre => exact hpre
  | self heq => exact absurd (heq ▸ .refl) hno
  | after mid post' _ hback => exact absurd (hback v (List.mem_cons_self ..)) hno
  | onPath hmem => exact absurd hmem List.not_mem_nil

end TypeLens.Graph
