import TypeLens.Proofs.Session.ModuleGraph

/-!
What holds of every session that can be reached. The checked modules are those of the module graph,
each once, whether the last load went well, failed or was broken off. A load that goes well leaves a
context that can be looked up in, and no look-up needs a module that is not there.
-/

namespace TypeLens.Session

open ModuleGraph (Found)

variable {c : Config} {s t : Session} {loaded : List Loaded}

/-- The checked modules under their names, filed one after the other. -/
def filed (loaded : List Loaded) : Table String Checked :=
  loaded.foldl (fun home l => home.put l.summary.module l.checked) []

def home (s : Session) : Table String Checked := filed s.loaded

-- Filing modules

theorem foldl_put {home : Table String Checked}
    (h : (home.keys ++ loaded.map (·.summary.module)).Nodup) :
    loaded.foldl (fun home l => home.put l.summary.module l.checked) home =
      home ++ loaded.map fun l => (l.summary.module, l.checked) := by
  induction loaded generalizing home with
  | nil => exact (List.append_nil _).symm
  | cons l ls ih =>
    have hnew : home.get? l.summary.module = none :=
      Table.get?_eq_none_iff.2 fun hmem =>
        List.disjoint_of_nodup_append h hmem (List.mem_cons_self ..)
    have hkeys : (home.put l.summary.module l.checked).keys = home.keys ++ [l.summary.module] := by
      rw [Table.put_of_none hnew, Table.keys, List.map_append]
      rfl
    rw [List.foldl_cons, ih (by rwa [hkeys, List.append_assoc]), Table.put_of_none hnew,
      List.append_assoc]
    rfl

theorem filed_eq (h : (loaded.map (·.summary.module)).Nodup) :
    filed loaded = loaded.map fun l => (l.summary.module, l.checked) := foldl_put h

theorem get?_map_loaded (m : String) :
    Table.get? m (loaded.map fun l => (l.summary.module, l.checked)) = lookup? loaded m := by
  induction loaded with
  | nil => rfl
  | cons l ls ih =>
    rw [List.map_cons, Table.get?, lookup?, List.find?_cons]
    by_cases hm : l.summary.module = m
    · rw [if_pos hm, beq_iff_eq.2 hm]
      rfl
    · rw [if_neg hm, beq_eq_false_iff_ne.2 hm]
      exact ih

theorem FromGraph.nodup (h : FromGraph c loaded) : (loaded.map (·.summary.module)).Nodup := by
  obtain ⟨fs, targets, found, rest, hbuild, hloads⟩ := h
  have hnames : loaded.map (·.summary.module) = found.map Found.name := by
    have := congrArg (List.map Summary.module) hloads.summaries
    rwa [List.map_map, List.map_map] at this
  have hnodup := (ModuleGraph.isGraph_of_build hbuild).nodup
  rw [List.map_append] at hnodup
  exact hnames ▸ (List.nodup_append.1 hnodup).1

-- Looking things up

/-- Identifiers are looked up in the module of the context if it is loaded, else in the bundled
one. -/
inductive InScope (s : Session) : Globals → Prop
  | context {m : String} {k : Checked} (hm : s.context = some m) (h : s.checked? m = some k) :
      InScope s k.globals
  | bundled {k : Checked} (hnone : s.context.bind s.checked? = none) (h : s.bundled = .ok k) :
      InScope s k.globals

/-- Names are looked up in their own module, which is the bundled one or loaded. -/
inductive Owns (s : Session) (n : Name) : Globals → Prop
  | bundled {k : Checked} (hn : n.module = preludeModule) (h : s.bundled = .ok k) :
      Owns s n k.globals
  | loaded {k : Checked} (hn : n.module ≠ preludeModule) (h : s.checked? n.module = some k) :
      Owns s n k.globals

theorem inScope_of_run {g : Globals} (h : (globals.run s).1 = .ok g) : InScope s g := by
  rw [globals, run_get_bind] at h
  cases hcontext : s.context.bind s.checked? with
  | some k =>
    rw [hcontext] at h
    cases h
    obtain ⟨m, hm, hk⟩ := Option.bind_eq_some_iff.1 hcontext
    exact .context hm hk
  | none =>
    simp only [hcontext] at h
    rw [run_bind, run_readBundled] at h
    cases hb : s.bundled with
    | error e => rw [hb] at h; cases h
    | ok k =>
      rw [hb] at h
      cases h
      exact .bundled hcontext hb

theorem owns_of_run {n : Name} {g : Globals} (h : ((owner? n.module).run s).1 = .ok (some g)) :
    Owns s n g := by
  rw [owner?] at h
  split at h
  · next hn =>
    rw [run_bind, run_readBundled] at h
    cases hb : s.bundled with
    | error e => rw [hb] at h; cases h
    | ok k =>
      rw [hb] at h
      cases h
      exact .bundled hn hb
  · next hn =>
    replace h : (Except.ok ((s.checked? n.module).map fun c => c.globals) :
      Except Failure (Option Globals)) = .ok (some g) := h
    obtain ⟨k, hk, rfl⟩ := Option.map_eq_some_iff.1 (Except.ok.inj h)
    exact .loaded hn hk

theorem bundled_owner? (module : String) (s : Session) :
    ((owner? module).run s).2.bundled = s.bundled := by
  rw [owner?]
  split
  · rw [run_bind, run_readBundled]
    cases h : s.bundled with
    | error e => exact h
    | ok k => rfl
  · rfl

/-- The module of a name that is described is there, and so is the context. -/
theorem owner_of_info {n : Name} {i : Info} (h : ((info? n).run s).1 = .ok (some i)) :
    ∃ g context, Owns s n g ∧ g.entity? n = some i.entity ∧ InScope s context ∧
      i.fixity = (context.fixities.get? n).getD (g.fixityOf n) := by
  rw [info?, run_bind] at h
  have howns (g : Globals) (h : ((owner? n.module).run s).1 = .ok (some g)) := owns_of_run h
  have hkeep := bundled_owner? n.module s
  obtain ⟨k, hk⟩ := onlyReads_owner? n.module s
  rcases hr : (owner? n.module).run s with ⟨r, u⟩
  rw [hr] at h howns hkeep hk
  obtain rfl : u = { s with kept := k } := hk
  cases r with
  | error e => cases h
  | ok owner =>
    dsimp only at h
    split at h
    · cases h
    · next e he =>
      obtain ⟨g, rfl, hg⟩ := Option.bind_eq_some_iff.1 he
      rw [run_bind] at h
      have hscope (g' : Globals) (h : (globals.run { s with kept := k }).1 = .ok g') :=
        inScope_of_run h
      rcases hrun : globals.run { s with kept := k } with ⟨r, u⟩
      rw [hrun] at h hscope
      cases r with
      | error e => cases h
      | ok context =>
        cases h
        refine ⟨g, context, howns g rfl, hg, ?_, ?_⟩
        · cases hscope context rfl with
          | context hm hk => exact .context hm hk
          | bundled hnone hb => exact .bundled hnone (hkeep ▸ hb)
        · show fixityOf context (some g) n = _
          rw [fixityOf]
          cases context.fixities.get? n <;> rfl

-- Choosing a context

/-- After a load that goes well, the context is the one there was if it is loaded, else the last
module. -/
inductive Chosen (old : Option String) (loaded : List Loaded) : Option String → Prop
  | kept {m : String} (hm : old = some m) (h : m ∈ loaded.map (·.summary.module)) :
      Chosen old loaded (some m)
  | last {l : Loaded} (hl : loaded.getLast? = some l)
      (h : ∀ m ∈ old, m ∉ loaded.map (·.summary.module)) : Chosen old loaded (some l.summary.module)
  | nothing (h : loaded = []) : Chosen old loaded none

theorem isSome_lookup? {m : String} :
    (lookup? loaded m).isSome ↔ m ∈ loaded.map (·.summary.module) := by
  rw [lookup?, Option.isSome_map, List.find?_isSome, List.mem_map]
  simp only [beq_iff_eq]

theorem Chosen.mem {old new : Option String} (h : Chosen old loaded new) (hne : loaded ≠ []) :
    ∃ m, new = some m ∧ m ∈ loaded.map (·.summary.module) := by
  cases h with
  | @kept m _ hm => exact ⟨m, rfl, hm⟩
  | last hl => exact ⟨_, rfl, List.mem_map_of_mem (List.mem_of_getLast? hl)⟩
  | nothing hnil => exact absurd hnil hne

-- Sessions

/-- The modules that are filed are those of the graph. -/
structure Consistent (s : Session) : Prop where
  keys : s.home.keys = s.graph.map (·.module)
  nodup : s.home.keys.Nodup
  get? : ∀ m, s.home.get? m = s.checked? m

theorem FromGraph.consistent (h : FromGraph c s.loaded) : Consistent s := by
  have hhome : s.home = s.loaded.map fun l => (l.summary.module, l.checked) := filed_eq h.nodup
  have hkeys : s.home.keys = s.loaded.map (·.summary.module) := by
    rw [hhome, Table.keys, List.map_map]
    rfl
  refine ⟨?_, hkeys ▸ h.nodup, fun m => ?_⟩
  · rw [hkeys, graph, List.map_map]
    rfl
  · rw [hhome]
    exact get?_map_loaded m

/-- What is so after a load. -/
structure Loads.Leaves (s : Session) (r : Except Failure Unit) (t : Session) : Prop where
  targets : t.targets = s.targets
  consistent : Consistent t
  failed : ∀ ds, r = .error (.source ds) → t.home = [] ∧ t.graph = []
  succeeded : r = .ok () → Chosen s.context t.loaded t.context

/-- A new session with a file as its target. -/
def targeted : Session :=
  Session.after [] { config := { implicitPrelude := false } } (.setTargets [.file ⟨0, ["M.hs"]⟩])

/-- The same session after its target and what it imports were loaded. -/
def filled : Session := targeted.after ModuleGraph.twoModules .load

theorem reachable_targeted : Reachable { implicitPrelude := false } targeted :=
  Reachable.new.after [] _

theorem reachable_filled : Reachable { implicitPrelude := false } filled :=
  reachable_targeted.after ModuleGraph.twoModules .load

theorem succeeds_of_toBool {x : Except Failure Unit} (h : x.toBool = true) : x = .ok () := by
  cases x with
  | ok u => rfl
  | error e => cases h

end TypeLens.Session
