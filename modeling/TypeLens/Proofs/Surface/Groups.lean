import Mathlib.Data.List.Pairwise
import TypeLens.Proofs.Graph.Components
import TypeLens.Surface.Groups

/-!
Binding groups are the strongly connected components of bindings that refer to each other, and come
after the groups that they refer to.
-/

namespace TypeLens.Surface

variable {ds : List Dependencies} {skip : List String}

theorem owner?_eq_some {name : String} {i : Nat} (h : owner? ds name = some i) :
    ∃ d, ds[i]? = some d ∧ name ∈ d.binders := by
  obtain ⟨hi, hname, -⟩ := List.findIdx?_eq_some_iff_getElem.1 h
  exact ⟨ds[i], List.getElem?_eq_getElem hi, List.contains_iff_mem.1 hname⟩

theorem exists_owner? {name : String} (h : ∃ d ∈ ds, name ∈ d.binders) :
    ∃ i, owner? ds name = some i := by
  obtain ⟨d, hd, hname⟩ := h
  refine Option.isSome_iff_exists.1 ?_
  rw [owner?, List.findIdx?_isSome, List.any_eq_true]
  exact ⟨d, hd, List.contains_iff_mem.2 hname⟩

theorem mem_references {i j : Nat} :
    j ∈ references ds skip i ↔
      ∃ d, ds[i]? = some d ∧ ∃ n ∈ d.mentions, n ∉ skip ∧ owner? ds n = some j := by
  unfold references
  split
  · next d hd =>
    simp only [List.mem_filterMap, hd, Option.some.injEq, exists_eq_left']
    refine exists_congr fun n => and_congr_right fun _ => ?_
    by_cases hn : n ∈ skip <;> simp [hn]
  · next hd => simp [hd]

theorem groupIndices_eq (ds : List Dependencies) (skip : List String) :
    groupIndices ds skip = Graph.components (references ds skip) (List.range ds.length) := by
  refine congrArg (Graph.components · _) (funext fun i => ?_)
  rw [List.getElem?_map]
  by_cases hi : i < ds.length
  · rw [List.getElem?_range hi]
    rfl
  · have hnone : ds[i]? = none := List.getElem?_eq_none (Nat.le_of_not_lt hi)
    rw [List.getElem?_eq_none (by simpa using hi), references, hnone]
    rfl

theorem references_closed : ∀ i ∈ List.range ds.length,
    references ds skip i ⊆ List.range ds.length := by
  intro i _ j hj
  obtain ⟨d, -, n, -, -, hj⟩ := mem_references.1 hj
  obtain ⟨d', hd', -⟩ := owner?_eq_some hj
  exact List.mem_range.2 (List.getElem?_eq_some_iff.1 hd').1

variable {α : Type} {xs : List (Dependencies × α)}

theorem mem_group {is : List Nat} {a : α} :
    a ∈ is.filterMap (fun i => (xs[i]?).map (·.2)) ↔ ∃ i ∈ is, ∃ x, xs[i]? = some x ∧ x.2 = a := by
  simp only [List.mem_filterMap, Option.map_eq_some_iff]

/-- A binding that one mentions is in the same group or in one before it. -/
theorem mentions_groupsOf {pre post : List (List α)} {g : List α}
    (hg : groupsOf xs skip = pre ++ g :: post) {a : α} (ha : a ∈ g) :
    ∃ x ∈ xs, x.2 = a ∧ ∀ n ∈ x.1.mentions, n ∉ skip → (∃ y ∈ xs, n ∈ y.1.binders) →
      ∃ g' ∈ pre ++ [g], ∃ y ∈ xs, y.2 ∈ g' ∧ n ∈ y.1.binders := by
  let group (is : List Nat) : List α := is.filterMap fun i => (xs[i]?).map (·.2)
  obtain ⟨ipre, rest, hindices, rfl, hrest⟩ := List.map_eq_append_iff.1 hg
  obtain ⟨is, ipost, rfl, rfl, -⟩ := List.map_eq_cons_iff.1 hrest
  obtain ⟨i, hi, x, hx, rfl⟩ := mem_group.1 ha
  refine ⟨x, List.mem_of_getElem? hx, rfl, fun n hn hskip hbound => ?_⟩
  obtain ⟨j, hj⟩ : ∃ j, owner? (xs.map (·.1)) n = some j := by
    obtain ⟨y, hy, hn⟩ := hbound
    exact exists_owner? ⟨y.1, List.mem_map_of_mem hy, hn⟩
  have hij : j ∈ references (xs.map (·.1)) skip i :=
    mem_references.2 ⟨x.1, by rw [List.getElem?_map, hx]; rfl, n, hn, hskip, hj⟩
  rw [groupIndices_eq] at hindices
  obtain ⟨js, hjs, hmem⟩ := Graph.components_ordered references_closed hindices hi (.single hij)
  obtain ⟨d, hd, hname⟩ := owner?_eq_some hj
  rw [List.getElem?_map] at hd
  obtain ⟨y, hy, rfl⟩ := Option.map_eq_some_iff.1 hd
  refine ⟨group js, ?_, y, List.mem_of_getElem? hy, mem_group.2 ⟨j, hmem, y, hy, rfl⟩, hname⟩
  rw [List.mem_append, List.mem_singleton] at hjs ⊢
  rcases hjs with hjs | rfl
  · exact .inl (List.mem_map_of_mem hjs)
  · exact .inr rfl

theorem exists_mem_groupsOf {x : Dependencies × α} (hx : x ∈ xs) :
    ∃ g ∈ groupsOf xs skip, x.2 ∈ g := by
  obtain ⟨i, hi⟩ := List.getElem?_of_mem hx
  have hlt : i < (xs.map (·.1)).length := by
    rw [List.length_map]
    exact (List.getElem?_eq_some_iff.1 hi).1
  obtain ⟨is, his, hmem⟩ : ∃ is ∈ Graph.components (references (xs.map (·.1)) skip)
      (List.range (xs.map (·.1)).length), i ∈ is :=
    Graph.exists_mem_components references_closed (List.mem_range.2 hlt)
  rw [← groupIndices_eq] at his
  exact ⟨_, List.mem_map_of_mem his, mem_group.2 ⟨i, hmem, x, hi, rfl⟩⟩

/-- Grouping keeps every binding once. -/
theorem flatten_groupsOf_perm (xs : List (Dependencies × α)) (skip : List String) :
    (groupsOf xs skip).flatten.Perm (xs.map (·.2)) := by
  have hindices : (groupIndices (xs.map (·.1)) skip).flatten.Perm (List.range xs.length) := by
    have hlength : (xs.map (·.1)).length = xs.length := List.length_map _
    rw [groupIndices_eq, ← hlength]
    exact Graph.flatten_components_perm references_closed List.nodup_range
  have hall : (List.range xs.length).filterMap (fun i => (xs[i]?).map (·.2)) = xs.map (·.2) := by
    clear hindices
    induction xs with
    | nil => rfl
    | cons x xs ih =>
      rw [List.length_cons, List.range_succ_eq_map, List.filterMap_cons, List.filterMap_map]
      exact congrArg (x.2 :: ·) ih
  rw [groupsOf, ← List.filterMap_flatten, ← hall]
  exact hindices.filterMap _

/-- There is a binding in every group. -/
theorem ne_nil_of_mem_groupsOf {skip : List String} {g : List α} (hg : g ∈ groupsOf xs skip) :
    g ≠ [] := by
  obtain ⟨is, his, rfl⟩ := List.mem_map.1 hg
  rw [groupIndices_eq] at his
  obtain ⟨i, hi, rfl⟩ := Graph.exists_of_mem_components references_closed his
  have hlt : i < xs.length := (List.length_map _) ▸ List.mem_range.1 hi
  refine List.ne_nil_of_mem (mem_group.2 ⟨i, ?_, xs[i], List.getElem?_eq_getElem hlt, rfl⟩)
  exact (Graph.mem_component references_closed hi).2 ⟨hi, .refl i⟩

theorem groupsOf_map {β : Type} (f : α → β) (xs : List (Dependencies × α)) (skip : List String) :
    groupsOf (xs.map (Prod.map id f)) skip = (groupsOf xs skip).map (List.map f) := by
  have hnames : (xs.map (Prod.map id f)).map Prod.fst = xs.map Prod.fst := by
    rw [List.map_map]
    rfl
  rw [groupsOf, groupsOf, hnames, List.map_map]
  refine List.map_congr_left fun is _ => ?_
  rw [Function.comp_apply, List.map_filterMap]
  refine List.filterMap_congr fun i _ => ?_
  rw [List.getElem?_map, Option.map_map, Option.map_map]
  rfl

-- Groups of bindings

/-- Names that a binding defines. -/
def Binding.names (b : Binding) : List String := b.binders.map (·.1)

/-- A binding refers to the first one that binds a name that it mentions, unless the name is in
`skip`. -/
def Refers (bs : List Binding) (skip : List String) (i j : Nat) : Prop :=
  ∃ b ∈ bs[i]?, ∃ n ∈ b.mentions, n ∉ skip ∧ (∃ b' ∈ bs[j]?, n ∈ b'.names) ∧
    ∀ k < j, ∀ b' ∈ bs[k]?, n ∉ b'.names

/-- References lead from one binding to the other, directly or not. -/
abbrev Reaches (bs : List Binding) (skip : List String) : Nat → Nat → Prop :=
  Relation.ReflTransGen (Refers bs skip)

/-- The strongly connected components of bindings, by their positions. -/
structure IsGrouping (bs : List Binding) (skip : List String) (gs : List (List Nat)) : Prop where
  partition : gs.flatten.Perm (List.range bs.length)
  inOrder : ∀ g ∈ gs, g.Pairwise (· < ·)
  together_iff : ∀ i < bs.length, ∀ j < bs.length,
    (∃ g ∈ gs, i ∈ g ∧ j ∈ g) ↔ Reaches bs skip i j ∧ Reaches bs skip j i
  before : ∀ pre g post, gs = pre ++ g :: post → ∀ i ∈ g, ∀ j, Refers bs skip i j → j ∉ g →
    ∃ g' ∈ pre, j ∈ g'
  alone : ∀ i, ∀ b ∈ bs[i]?, (∀ n ∈ b.names, n ∈ skip) → [i] ∈ gs

variable {bs : List Binding}

theorem owner?_eq_some_iff {name : String} {j : Nat} :
    owner? (bs.map Binding.dependencies) name = some j ↔
      (∃ b ∈ bs[j]?, name ∈ b.names) ∧ ∀ k < j, ∀ b ∈ bs[k]?, name ∉ b.names := by
  rw [owner?, List.findIdx?_eq_some_iff_getElem]
  simp only [List.getElem_map, List.length_map, List.contains_iff_mem, Option.mem_def,
    List.getElem?_eq_some_iff, Binding.dependencies]
  constructor
  · rintro ⟨hj, hname, hfirst⟩
    refine ⟨⟨bs[j], ⟨hj, rfl⟩, hname⟩, ?_⟩
    rintro k hk - ⟨-, rfl⟩
    exact hfirst k hk
  · rintro ⟨⟨-, ⟨hj, rfl⟩, hname⟩, hfirst⟩
    exact ⟨hj, hname, fun k hk => hfirst k hk _ ⟨Nat.lt_trans hk hj, rfl⟩⟩

theorem mem_references_iff {i j : Nat} :
    j ∈ references (bs.map Binding.dependencies) skip i ↔ Refers bs skip i j := by
  rw [mem_references]
  simp only [List.getElem?_map, owner?_eq_some_iff, Refers, Option.map_eq_some_iff, Option.mem_def]
  constructor
  · rintro ⟨-, ⟨b, hb, rfl⟩, h⟩
    exact ⟨b, hb, h⟩
  · rintro ⟨b, hb, h⟩
    exact ⟨_, ⟨b, hb, rfl⟩, h⟩

theorem leads_references_iff {i j : Nat} :
    Graph.Leads (references (bs.map Binding.dependencies) skip) i j ↔ Reaches bs skip i j := by
  have hedge : (fun i j => j ∈ references (bs.map Binding.dependencies) skip i) =
      Refers bs skip := funext fun i => funext fun j => propext mem_references_iff
  rw [Graph.Leads, Reaches, hedge]

/-- Nothing refers to a binding all of whose names are in `skip`. -/
theorem Refers.exists_not_mem_skip {i j : Nat} (h : Refers bs skip i j) {b : Binding}
    (hb : b ∈ bs[j]?) : ∃ n ∈ b.names, n ∉ skip := by
  obtain ⟨-, -, n, -, hskip, ⟨b', hb', hn⟩, -⟩ := h
  obtain rfl := Option.mem_unique hb hb'
  exact ⟨n, hn, hskip⟩

theorem eq_of_reaches {i j : Nat} (h : Reaches bs skip i j) {b : Binding} (hb : b ∈ bs[j]?)
    (hskip : ∀ n ∈ b.names, n ∈ skip) : i = j := by
  rcases Relation.ReflTransGen.cases_tail h with rfl | ⟨k, -, hk⟩
  · rfl
  · obtain ⟨n, hn, hnot⟩ := hk.exists_not_mem_skip hb
    exact absurd (hskip n hn) hnot

theorem isGrouping_groupIndices (bs : List Binding) (skip : List String) :
    IsGrouping bs skip (groupIndices (bs.map Binding.dependencies) skip) := by
  rw [groupIndices_eq, List.length_map]
  let next := references (bs.map Binding.dependencies) skip
  have hclosed : ∀ i ∈ List.range bs.length, next i ⊆ List.range bs.length := by
    rw [← List.length_map Binding.dependencies]
    exact references_closed
  have htogether : ∀ i < bs.length, ∀ j < bs.length,
      (∃ g ∈ Graph.components next (List.range bs.length), i ∈ g ∧ j ∈ g) ↔
        Reaches bs skip i j ∧ Reaches bs skip j i := by
    intro i hi j hj
    rw [Graph.exists_component_iff hclosed (List.mem_range.2 hi) (List.mem_range.2 hj),
      Graph.Connected, leads_references_iff, leads_references_iff]
  have hsublist {g : List Nat} (hg : g ∈ Graph.components next (List.range bs.length)) :
      g.Sublist (List.range bs.length) := Graph.sublist_of_mem_components hclosed hg
  refine ⟨Graph.flatten_components_perm hclosed List.nodup_range,
    fun g hg => List.pairwise_lt_range.sublist (hsublist hg), htogether, ?_, ?_⟩
  · intro pre g post hg i hi j hij hnot
    obtain ⟨g', hg', hj⟩ := Graph.components_ordered hclosed hg hi
      (.single (mem_references_iff.2 hij))
    rcases List.mem_append.1 hg' with hg' | hg'
    · exact ⟨g', hg', hj⟩
    · exact absurd (List.mem_singleton.1 hg' ▸ hj) hnot
  · intro i b hb hskip
    have hi : i < bs.length := (List.getElem?_eq_some_iff.1 hb).1
    obtain ⟨g, hg, hig⟩ := Graph.exists_mem_components hclosed (List.mem_range.2 hi)
    have hall : ∀ j ∈ g, j = i := fun j hj =>
      eq_of_reaches ((htogether i hi j
        (List.mem_range.1 ((hsublist hg).subset hj))).1 ⟨g, hg, hig, hj⟩).2 hb hskip
    have hsingle : g = [i] := by
      have hnodup : g.Nodup := List.nodup_range.sublist (hsublist hg)
      exact List.perm_singleton.1 ((List.perm_ext_iff_of_nodup hnodup (List.nodup_singleton i)).2
        fun j => ⟨fun hj => List.mem_singleton.2 (hall j hj),
          fun hj => List.mem_singleton.1 hj ▸ hig⟩)
    exact hsingle ▸ hg

/-- A binding all of whose names are in `skip` is a group of its own. -/
theorem IsGrouping.eq_singleton {gs : List (List Nat)} (h : IsGrouping bs skip gs) {g : List Nat}
    (hg : g ∈ gs) {i : Nat} (hi : i ∈ g) {b : Binding} (hb : b ∈ bs[i]?)
    (hskip : ∀ n ∈ b.names, n ∈ skip) : g = [i] := by
  have hdisjoint : gs.Pairwise List.Disjoint :=
    (List.nodup_flatten.1 (h.partition.nodup_iff.2 List.nodup_range)).2
  have hsymm : Std.Symm (List.Disjoint (α := Nat)) := ⟨fun _ _ hd _ ha hb => hd hb ha⟩
  by_contra hne
  exact hdisjoint.forall hg (h.alone i b hb hskip) hne hi (List.mem_singleton_self i)

end TypeLens.Surface
