import TypeLens.Proofs.Graph.Cycles
import TypeLens.Proofs.Session.Failures
import TypeLens.Proofs.Session.Loading

/-!
The module graph of targets: it has all the modules that they need and no others, and each comes
after those that it imports. So no module is missing when the modules are checked in this order.
-/

namespace TypeLens

namespace ModuleGraph

variable {fs : Files} {c : Config} {targets : List Target} {found : List Found} {s : Scan}

/-- The first module imports the second. -/
def Imports (found : List Found) (m n : String) : Prop :=
  ∃ f ∈ found, f.name = m ∧ n ∈ f.summary.imports

/-- What makes a list of modules the module graph of the targets. -/
structure IsGraph (fs : Files) (c : Config) (targets : List Target) (found : List Found) :
    Prop where
  nodup : (found.map Found.name).Nodup
  read : ∀ f ∈ found, f.IsRead fs c
  complete : ∀ n, n ∈ found.map Found.name ↔ Needed fs c targets found n
  acyclic : ∀ n, ¬ Relation.TransGen (Imports found) n n
  ordered : ∀ pre f post, found = pre ++ f :: post →
    ∀ n ∈ f.summary.imports, n ∈ pre.map Found.name

/-- A target asks for one module. -/
theorem Asks.unique {t : Target} {m n : String} (hm : Asks fs c t m) (hn : Asks fs c t n) :
    m = n := by
  cases hm with
  | file hm =>
    cases hn with
    | file hn => rw [Except.ok.inj (hm.symm.trans hn)]
  | module => cases hn; rfl
  | nothing hp hm =>
    cases hn with
    | nothing hq hn =>
      obtain rfl := Option.some.inj (Except.ok.inj (hp.symm.trans hq))
      rw [Except.ok.inj (hm.symm.trans hn)]

-- A scan without problems

namespace Scan.Sound

theorem exists_of_mem_keys (h : s.Sound fs c targets []) {n : String} (hn : n ∈ s.modules.keys) :
    ∃ f ∈ s.modules.values, s.modules.get? n = some f ∧ f.name = n := by
  cases hget : s.modules.get? n with
  | none => exact absurd hn (Table.get?_eq_none_iff.1 hget)
  | some f =>
    have hmem := Table.mem_of_get? hget
    exact ⟨f, List.mem_map_of_mem hmem, rfl, (h.read _ hmem).1.symm⟩

theorem get?_name (h : s.Sound fs c targets []) {f : Found} (hf : f ∈ s.modules.values) :
    s.modules.get? f.name = some f := by
  obtain ⟨⟨n, f⟩, hmem, rfl⟩ := List.mem_map.1 hf
  obtain rfl : n = f.name := (h.read _ hmem).1
  exact Table.get?_of_mem h.nodup hmem

theorem name_mem_keys (h : s.Sound fs c targets []) {f : Found} (hf : f ∈ s.modules.values) :
    f.name ∈ s.modules.keys :=
  List.mem_map_of_mem (Table.mem_of_get? (h.get?_name hf))

variable (hnone : s.problems = [])
include hnone

theorem imports_subset (h : s.Sound fs c targets []) {f : Found} (hf : f ∈ s.modules.values) :
    f.summary.imports ⊆ s.modules.keys := by
  intro n hn
  rcases h.imports hnone f hf n hn with ⟨m, hm, rfl⟩ | ⟨r, hr, -⟩
  · exact hm
  · cases hr

theorem importsOf_name (h : s.Sound fs c targets []) {f : Found} (hf : f ∈ s.modules.values) :
    importsOf s.modules f.name = f.summary.imports := by
  rw [importsOf, h.get?_name hf]
  refine List.filter_eq_self.2 fun n hn => ?_
  obtain ⟨g, -, hget, -⟩ := h.exists_of_mem_keys (h.imports_subset hnone hf hn)
  rw [Table.contains, hget]
  rfl

/-- All that is needed has been found. -/
theorem mem_keys_of_needed (h : s.Sound fs c targets []) {n : String}
    (hn : Needed fs c targets s.modules.values n) : n ∈ s.modules.keys := by
  induction hn with
  | target ht hask =>
    rcases h.targets hnone _ ht with ⟨m, hm, hask'⟩ | ⟨r, hr, -⟩
    · exact hask.unique hask' ▸ hm
    · cases hr
  | imported hf _ hn _ => exact h.imports_subset hnone hf hn

theorem importsOf_subset (h : s.Sound fs c targets []) :
    ∀ n ∈ s.modules.keys, importsOf s.modules n ⊆ s.modules.keys := by
  intro n hn
  obtain ⟨f, hf, -, rfl⟩ := h.exists_of_mem_keys hn
  rw [h.importsOf_name hnone hf]
  exact h.imports_subset hnone hf

end Scan.Sound

/-- The names of a scan in the order of its graph. -/
theorem map_name_ordered (h : s.Sound fs c targets []) (hnone : s.problems = []) :
    s.ordered.map Found.name =
      Graph.finishOrder (importsOf s.modules) s.modules.length s.modules.keys := by
  have hmap {ns : List String} (hns : ns ⊆ s.modules.keys) :
      (ns.filterMap s.modules.get?).map Found.name = ns := by
    induction ns with
    | nil => rfl
    | cons n ns ih =>
      obtain ⟨hn, hns⟩ := List.cons_subset.1 hns
      obtain ⟨f, -, hget, hname⟩ := h.exists_of_mem_keys hn
      rw [List.filterMap_cons, hget, List.map_cons, ih hns, hname]
  have hlength : s.modules.length = s.modules.keys.length := (List.length_map _).symm
  refine hmap fun n hn => ?_
  rw [hlength] at hn
  exact (Graph.mem_order (h.importsOf_subset hnone)).1 hn

theorem mem_ordered (h : s.Sound fs c targets []) (hnone : s.problems = []) {f : Found} :
    f ∈ s.ordered ↔ f ∈ s.modules.values := by
  have hlength : s.modules.length = s.modules.keys.length := (List.length_map _).symm
  rw [Scan.ordered, List.mem_filterMap, hlength]
  constructor
  · rintro ⟨n, -, hget⟩
    exact List.mem_map_of_mem (Table.mem_of_get? hget)
  · intro hf
    exact ⟨f.name, (Graph.mem_order (h.importsOf_subset hnone)).2 (h.name_mem_keys hf),
      h.get?_name hf⟩

theorem isGraph_ordered (h : s.Sound fs c targets []) (hverdict : s.verdict = []) :
    IsGraph fs c targets s.ordered := by
  have hnone : s.problems = [] := by
    unfold Scan.verdict at hverdict
    split at hverdict
    · next hempty => exact List.isEmpty_iff.1 hempty
    · exact hverdict
  have hcycle : Graph.findCycle (importsOf s.modules) s.modules.keys = none := by
    rw [Scan.verdict, hnone] at hverdict
    cases hfind : Graph.findCycle (importsOf s.modules) s.modules.keys with
    | none => rfl
    | some cycle => simp [hfind] at hverdict
  have hclosed := h.importsOf_subset hnone
  have hacyclic := Graph.not_onCycle_of_findCycle hclosed hcycle
  have hnames := map_name_ordered h hnone
  have hlength : s.modules.length = s.modules.keys.length := (List.length_map _).symm
  rw [hlength] at hnames
  have hmem (n : String) : n ∈ s.ordered.map Found.name ↔ n ∈ s.modules.keys := by
    rw [hnames, Graph.mem_order hclosed]
  have hsame {f : Found} : f ∈ s.ordered ↔ f ∈ s.modules.values := mem_ordered h hnone
  have hsub : s.ordered ⊆ s.modules.values := fun f => hsame.1
  have hsub' : s.modules.values ⊆ s.ordered := fun f => hsame.2
  refine ⟨?_, fun f hf => ?_, fun n => ?_, fun n hn => ?_, fun pre f post hsplit n hn => ?_⟩
  · rw [hnames]
    exact (Graph.found_finishOrder hclosed (List.Subset.refl _)).searched.nodup
  · obtain ⟨x, hx, rfl⟩ := List.mem_map.1 (hsub hf)
    exact (h.read x hx).2
  · rw [hmem]
    exact ⟨fun hn => (h.needed n hn).mono hsub',
      fun hn => h.mem_keys_of_needed hnone (hn.mono hsub)⟩
  · have hstep (a b : String) (hab : Imports s.ordered a b) :
        a ∈ s.modules.keys ∧ b ∈ importsOf s.modules a := by
      obtain ⟨f, hf, rfl, hb⟩ := hab
      exact ⟨h.name_mem_keys (hsub hf), by rwa [h.importsOf_name hnone (hsub hf)]⟩
    obtain ⟨b, hb, -⟩ := Relation.TransGen.head'_iff.1 hn
    exact hacyclic n (hstep n b hb).1 (Relation.TransGen.mono (fun a b hab => (hstep a b hab).2) n n hn)
  · have hf : f ∈ s.modules.values := hsub (hsplit ▸ by simp)
    rw [hsplit, List.map_append, List.map_cons] at hnames
    refine Graph.mem_before_of_finishOrder hclosed (List.Subset.refl _) hacyclic hnames.symm ?_
    rwa [h.importsOf_name hnone hf]

theorem isGraph_of_build (h : build fs c targets = .ok found) : IsGraph fs c targets found := by
  obtain ⟨s, hs, hverdict, rfl⟩ := build_eq_ok h
  exact isGraph_ordered (sound_scan hs) hverdict

end ModuleGraph

-- Checking the modules of a graph

namespace Session

open ModuleGraph

variable {c : Config} {s t : Session}

/-- Whether the bundled module can be read does not change. -/
theorem bundled_exportsOf (n : String) (s : Session) :
    ((exportsOf n).run s).2.bundled = s.bundled := by
  by_cases hn : n = preludeModule
  · rw [exportsOf, if_pos hn, run_bind, run_readBundled]
    cases h : s.bundled with
    | error e => exact h
    | ok k => rfl
  · rw [run_exportsOf hn]

/-- Among modules that are loaded, only the bundled one can fail to be found. -/
theorem bundled_of_mapM {ns : List String} {e : Failure}
    (hns : ∀ n ∈ ns, n ≠ preludeModule → (s.checked? n).isSome)
    (h : ((ns.mapM exportsOf).run s).1 = .error e) : s.bundled = .error e := by
  induction ns generalizing s with
  | nil => cases h
  | cons n ns ih =>
    obtain ⟨hn, hns⟩ := List.forall_mem_cons.1 hns
    rw [List.mapM_cons, run_bind] at h
    have hkeep := bundled_exportsOf n s
    have hloaded := (onlyReads_exportsOf n).run_loaded s
    rcases hr : (exportsOf n).run s with ⟨r, t⟩
    rw [hr] at h hkeep hloaded
    cases r with
    | error e' =>
      cases h
      by_cases hne : n = preludeModule
      · rw [exportsOf, if_pos hne, run_bind, run_readBundled] at hr
        cases hb : s.bundled with
        | error e' => rw [hb] at hr; cases hr; rfl
        | ok k => rw [hb] at hr; cases hr
      · obtain ⟨k, hk⟩ := Option.isSome_iff_exists.1 (hn hne)
        rw [run_exportsOf hne, hk] at hr
        cases hr
    | ok x =>
      dsimp only at h
      rw [run_bind] at h
      rw [← hkeep]
      refine ih (fun m hm hne => ?_) ?_
      · rw [checked?, show t.loaded = s.loaded from hloaded]
        exact hns m hm hne
      · rcases hrs : (ns.mapM exportsOf).run t with ⟨rs, u⟩
        rw [hrs] at h
        cases rs with
        | error e' => cases h; rfl
        | ok xs => cases h

theorem summaries_checkAll {todo : List Found} (h : (checkAll todo).run s = (.ok (), t)) :
    t.loaded.map (·.summary) = s.loaded.map (·.summary) ++ todo.map (·.summary) := by
  induction todo generalizing s with
  | nil =>
    cases h
    exact (List.append_nil _).symm
  | cons f fs ih =>
    rw [run_checkAll_cons] at h
    have hloaded := (onlyReads_check f.source).run_loaded s
    rcases hr : (check f.source).run s with ⟨r, u⟩
    rw [hr] at h hloaded
    cases r with
    | error e => cases h
    | ok k =>
      rw [ih h, List.map_append, show u.loaded = s.loaded from hloaded]
      exact List.append_assoc ..

theorem isSome_checked? {n : String} (h : n ∈ s.loaded.map (·.summary.module)) :
    (s.checked? n).isSome := by
  obtain ⟨l, hl, rfl⟩ := List.mem_map.1 h
  rw [checked?, lookup?, Option.isSome_map, List.find?_isSome]
  exact ⟨l, hl, beq_self_eq_true _⟩

/-- When a module's turn comes, all that it imports is loaded, but for the bundled module. -/
theorem isSome_checked?_of_importNames {fs : Files} {targets : List Target} {pre post : List Found}
    {f : Found} (h : IsGraph fs c targets (pre ++ f :: post)) (hloaded : s.loaded = [])
    (hrun : (checkAll pre).run s = (.ok (), t)) {n : String} (hn : n ∈ importNames c f.source)
    (hne : n ≠ preludeModule) : (t.checked? n).isSome := by
  have hread : f.IsRead fs c := h.read f (by simp)
  have hmem : n ∈ f.source.imports.map (·.module) := by
    unfold importNames at hn
    dsimp only at hn
    split at hn
    · exact (List.mem_cons.1 hn).resolve_left hne
    · exact hn
  have himports : n ∈ f.summary.imports := by
    rw [hread.imports, List.mem_filter]
    exact ⟨hmem, by simpa using hne⟩
  have hsummaries := summaries_checkAll hrun
  rw [hloaded, List.map_nil, List.nil_append] at hsummaries
  refine isSome_checked? ?_
  have hnames : t.loaded.map (·.summary.module) = pre.map Found.name := by
    have := congrArg (List.map Summary.module) hsummaries
    rwa [List.map_map, List.map_map] at this
  rw [hnames]
  exact h.ordered pre f post rfl n himports

end Session

namespace ModuleGraph

open Session (checkAll exportsOf importNames)

/-- The search for the modules of targets comes to an end. It fails over the source, unless one of
the obstacles is in its way. A graph that it gives is what the targets need, each module once and
after those that it imports, so that all of them are there when it is to be checked: what fails then
is reading the bundled module. -/
theorem build_complete (fs : Files) (c : Config) (targets : List Target) :
    (∀ s rs, requestTargets fs c {} targets = .ok (s, rs) →
        Drains fs c s rs (scan fs c targets)) ∧
      (∀ e, build fs c targets = .error e → (∃ ds, e = .source ds) ∨ Obstacle fs c targets e) ∧
      ∀ found, build fs c targets = .ok found → IsGraph fs c targets found ∧
        ∀ pre f post, found = pre ++ f :: post → ∀ s t : Session, s.loaded = [] →
          (checkAll pre).run s = (.ok (), t) →
            (∀ n ∈ importNames c f.source, n ≠ preludeModule → (t.checked? n).isSome) ∧
              ∀ e, (((importNames c f.source).mapM exportsOf).run t).1 = .error e →
                t.bundled = .error e := by
  refine ⟨fun s rs h => drains_scan fs c targets h, fun e h => ?_, fun found h => ?_⟩
  · have hends := ends_build fs c targets
    rw [h] at hends
    exact hends.of_error
  · have hgraph := isGraph_of_build h
    refine ⟨hgraph, ?_⟩
    rintro pre f post rfl s t hloaded hrun
    have himports (n : String) (hn : n ∈ importNames c f.source) (hne : n ≠ preludeModule) :
        (t.checked? n).isSome :=
      Session.isSome_checked?_of_importNames hgraph hloaded hrun hn hne
    exact ⟨himports, fun e => Session.bundled_of_mapM himports⟩

/-- A module that imports another one, which is in the next file. -/
def twoModules : Files :=
  [(⟨0, ["M.hs"]⟩, .file ("import A\nx = y".toList.map fun c => c.toNat.toUInt8)),
    (⟨0, ["A.hs"]⟩, .file ("module A\ny v = v".toList.map fun c => c.toNat.toUInt8))]

theorem build_badString : build Session.badString {} [.file ⟨0, ["M.hs"]⟩] =
    .error (.badString (.notUtf8 .invalidStart)) :=
  Session.build_of_parseFile (c := {}) Session.isFile_badString Session.parseFile_badString

/-- One module after the other is found, and the first is loaded when the second is checked; no
module is found where the text of a string cannot be read. -/
theorem build_complete_two_modules :
    (∃ a m, build twoModules { implicitPrelude := false } [.file ⟨0, ["M.hs"]⟩] = .ok [a, m] ∧
        IsGraph twoModules { implicitPrelude := false } [.file ⟨0, ["M.hs"]⟩] [a, m] ∧
        ∃ t, (checkAll [a]).run { config := { implicitPrelude := false } } = (.ok (), t) ∧
          (∀ n ∈ importNames { implicitPrelude := false } m.source, n ≠ preludeModule →
            (t.checked? n).isSome) ∧
          ∀ e, (((importNames { implicitPrelude := false } m.source).mapM exportsOf).run t).1 =
            .error e → t.bundled = .error e) ∧
      (∃ s rs, requestTargets twoModules {} {} [.file ⟨0, ["M.hs"]⟩] = .ok (s, rs) ∧
        Drains twoModules {} s rs (scan twoModules {} [.file ⟨0, ["M.hs"]⟩])) ∧
      build Session.badString {} [.file ⟨0, ["M.hs"]⟩] =
          .error (.badString (.notUtf8 .invalidStart)) ∧
        ((∃ ds, Failure.badString (.notUtf8 .invalidStart) = .source ds) ∨
          Obstacle Session.badString {} [.file ⟨0, ["M.hs"]⟩]
            (.badString (.notUtf8 .invalidStart))) := by
  refine ⟨?_, ⟨_, _, rfl, (build_complete twoModules {} _).1 _ _ rfl⟩, ?_⟩
  · obtain ⟨found, hfound⟩ : ∃ found, found = (build twoModules { implicitPrelude := false }
        [.file ⟨0, ["M.hs"]⟩]).toOption.getD [] := ⟨_, rfl⟩
    have hlength : found.length = 2 := by
      rw [hfound]
      decide +kernel
    have hcheck : ((checkAll (found.take 1)).run
        { config := { implicitPrelude := false } }).1.toBool = true := by
      rw [hfound]
      decide +kernel
    have hbuild : build twoModules { implicitPrelude := false } [.file ⟨0, ["M.hs"]⟩] =
        .ok found := by
      cases h : build twoModules { implicitPrelude := false } [.file ⟨0, ["M.hs"]⟩] with
      | ok found' =>
        rw [h] at hfound
        exact congrArg _ hfound.symm
      | error e =>
        rw [h] at hfound
        subst hfound
        cases hlength
    obtain ⟨a, m, rfl⟩ := List.length_eq_two.1 hlength
    obtain ⟨hgraph, hload⟩ := (build_complete _ _ _).2.2 _ hbuild
    rcases hrun : (checkAll [a]).run { config := { implicitPrelude := false } } with ⟨r, t⟩
    rw [show [a, m].take 1 = [a] from rfl, hrun] at hcheck
    cases r with
    | error e => cases hcheck
    | ok u => exact ⟨a, m, hbuild, hgraph, t, hrun, hload [a] m [] rfl _ t rfl hrun⟩
  · exact ⟨build_badString, (build_complete _ _ _).2.1 _ build_badString⟩

/-- The search can fail though the source is not at fault. -/
theorem build_fails_on_badString :
    ¬ ∀ fs c targets, (∃ found, build fs c targets = .ok found) ∨
      ∃ ds, build fs c targets = .error (.source ds) := by
  intro h
  rcases h Session.badString {} [.file ⟨0, ["M.hs"]⟩] with ⟨found, hok⟩ | ⟨ds, hds⟩
  · exact absurd (build_badString.symm.trans hok) (by simp)
  · exact absurd (build_badString.symm.trans hds) (by simp)

end ModuleGraph

end TypeLens
