import TypeLens.Proofs.Graph.Cycles
import TypeLens.Session.ModuleGraph

/-!
The search for an import cycle is exact: it fails to find one only if there is none, and what it
finds is one.
-/

namespace TypeLens.ModuleGraph

open TypeLens.Graph (findCycle hunt)

variable {ms : Table String Found} {m n : String}

/-- The first module imports the second, and both are in the table. -/
def ImportsWithin (ms : Table String Found) (m n : String) : Prop :=
  ∃ f, ms.get? m = some f ∧ n ∈ f.summary.imports ∧ n ∈ ms.keys

theorem mem_importsOf : n ∈ importsOf ms m ↔ ImportsWithin ms m n := by
  have hkey : ms.contains n = true ↔ n ∈ ms.keys := by
    rw [Table.contains, ← not_iff_not, ← Table.get?_eq_none_iff]
    simp
  rw [importsOf, ImportsWithin]
  cases ms.get? m with
  | none => simp
  | some f => simp [hkey]

theorem importsOf_subset_keys : importsOf ms m ⊆ ms.keys := by
  intro n hn
  obtain ⟨f, -, -, hkey⟩ := mem_importsOf.1 hn
  exact hkey

theorem mem_keys_of_onCycle (h : Graph.OnCycle (importsOf ms) m) : m ∈ ms.keys := by
  obtain ⟨n, -, hm⟩ := Relation.TransGen.tail'_iff.1 h
  exact importsOf_subset_keys hm

theorem onCycle_iff :
    Graph.OnCycle (importsOf ms) m ↔ Relation.TransGen (ImportsWithin ms) m m := by
  have hsame : (fun m n => n ∈ importsOf ms m) = ImportsWithin ms := by
    funext m n
    exact propext mem_importsOf
  rw [Graph.OnCycle, hsame]

/-- The search is never deeper than the number of modules, so it comes to an end without a bound. It
finds nothing exactly if the imports among the modules have no cycle. Otherwise it gives modules of
which each imports the next, where the last is the first and no other is repeated. -/
theorem findCycle_exact (ms : Table String Found) :
    (∀ depth, ms.length < depth →
        (ms.keys.foldl (hunt (importsOf ms) depth []) {}).cycle =
          findCycle (importsOf ms) ms.keys) ∧
      (findCycle (importsOf ms) ms.keys = none ↔
        ∀ m, ¬ Relation.TransGen (ImportsWithin ms) m m) ∧
      ∀ c, findCycle (importsOf ms) ms.keys = some c →
        c.IsChain (ImportsWithin ms) ∧ ∃ m p, c = m :: p ++ [m] ∧ (m :: p).Nodup := by
  have hclosed : ∀ m ∈ ms.keys, importsOf ms m ⊆ ms.keys := fun _ _ => importsOf_subset_keys
  refine ⟨fun depth hdepth => ?_, ⟨fun hnone m hcycle => ?_, fun hno => ?_⟩, fun c hc => ?_⟩
  · apply Graph.findCycle_of_lt hclosed
    rwa [Table.keys, List.length_map]
  · have hcycle := onCycle_iff.2 hcycle
    exact Graph.not_onCycle_of_findCycle hclosed hnone m (mem_keys_of_onCycle hcycle) hcycle
  · rw [← Option.not_isSome_iff_eq_none]
    intro hsome
    obtain ⟨m, hm⟩ := Graph.exists_onCycle_of_findCycle hsome
    exact hno m (onCycle_iff.1 hm)
  · obtain ⟨hedges, hends⟩ := Graph.isCycle_of_findCycle hc
    exact ⟨hedges.imp fun _ _ => mem_importsOf.1, hends⟩

/-- `A` imports `B`, which imports `A` and a module that is not there. -/
def importsInARing : Table String Found :=
  [("A", ⟨⟨"A", none, ["B"]⟩, .empty "A"⟩), ("B", ⟨⟨"B", none, ["Z", "A"]⟩, .empty "B"⟩)]

theorem findCycle_exact_ring :
    findCycle (importsOf importsInARing) importsInARing.keys = some ["A", "B", "A"] ∧
      ["A", "B", "A"].IsChain (ImportsWithin importsInARing) ∧
        (importsInARing.keys.foldl (hunt (importsOf importsInARing) 9 []) {}).cycle =
          some ["A", "B", "A"] := by
  have hfound : findCycle (importsOf importsInARing) importsInARing.keys =
      some ["A", "B", "A"] := by
    decide +kernel
  obtain ⟨hdepth, -, hcycle⟩ := findCycle_exact importsInARing
  exact ⟨hfound, (hcycle _ hfound).1, (hdepth 9 (by decide)).trans hfound⟩

end TypeLens.ModuleGraph
