import TypeLens.Proofs.Session.Descriptions
import TypeLens.Proofs.Session.ModuleGraph
import TypeLens.Proofs.Session.Rounds

/-!
The order of targets. What loads in two orders consists of the same modules from the same files. But
a module that an import asks for is not searched for when a target has led to it before, so that an
order may go well in which a second file of that name is not seen. If each import leads the search to
the file that was loaded, the order does not matter.
-/

namespace TypeLens

namespace ModuleGraph

variable {fs : Files} {c : Config} {targets targets' : List Target} {found : List Found}
  {s s' : Scan} {r : Request} {rs new : List Request}

/-- Every target and every import of a module leads the search to the file of a module. -/
structure Located (fs : Files) (c : Config) (targets : List Target) (graph : List Summary) :
    Prop where
  targets : ∀ t ∈ targets, ∃ m ∈ graph, targetFile fs c t = .ok m.file
  imports : ∀ m ∈ graph, ∀ n ∈ m.imports, ∃ m' ∈ graph, m'.module = n ∧
    findModule fs c n m.file = .ok m'.file

theorem Located.perm {graph graph' : List Summary}
    (h : Located fs c targets graph) (hperm : targets.Perm targets') (hgraph : graph.Perm graph') :
    Located fs c targets' graph' := by
  refine ⟨fun t ht => ?_, fun m hm n hn => ?_⟩
  · obtain ⟨m, hm, hfile⟩ := h.targets t (hperm.symm.subset ht)
    exact ⟨m, hgraph.subset hm, hfile⟩
  · obtain ⟨m', hm', hfind⟩ := h.imports m (hgraph.symm.subset hm) n hn
    exact ⟨m', hgraph.subset hm', hfind⟩

/-- A graph whose modules are in files that are there, and to which all searches lead. -/
structure Closed (fs : Files) (c : Config) (targets : List Target) (found : List Found) :
    Prop where
  nodup : (found.map Found.name).Nodup
  stands : ∀ f ∈ found, ∃ p, f.Stands fs c p
  targets : ∀ t ∈ targets, ∃ f ∈ found, targetFile fs c t = .ok f.summary.file ∧
    ∀ n ∈ expectedName t, n = f.name
  imports : ∀ f ∈ found, ∀ n ∈ f.summary.imports, ∃ g ∈ found, g.name = n ∧
    findModule fs c n f.summary.file = .ok g.summary.file

/-- The request leads to a module of the graph. -/
def Request.Into (found : List Found) (r : Request) : Prop :=
  ∃ f ∈ found, f.summary.file = some r.path ∧ ∀ n ∈ r.expected, n = f.name

/-- A search that has no problem and does not leave the graph. -/
structure Scan.Inside (found : List Found) (s : Scan) (rs : List Request) : Prop where
  problems : s.problems = []
  modules : ∀ n f, s.modules.get? n = some f → f ∈ found ∧ f.name = n
  requests : ∀ r ∈ rs, r.Into found

theorem eq_of_name (hnodup : (found.map Found.name).Nodup) {f g : Found} (hf : f ∈ found)
    (hg : g ∈ found) (h : f.name = g.name) : f = g :=
  List.inj_on_of_nodup_map hnodup hf hg h

theorem serve_of_source {m : Surface.Module} (hfile : fs.isFile r.path = .ok true)
    (hm : Surface.parseFile fs c.tabWidth r.path.render = .ok m) :
    serve fs c s r = addModule fs c s r m := by
  simp only [serve, hfile, hm, bind, Except.bind, if_true]

namespace Closed

theorem requestImports (h : Closed fs c targets found) {f : Found} (hf : f ∈ found) {p : Path}
    (hp : f.Stands fs c p) {is : List Surface.ImportDecl} (his : is ⊆ f.source.imports) (s : Scan) :
    ∃ new, ModuleGraph.requestImports fs c p s is = .ok (s, new) ∧ ∀ r ∈ new, r.Into found := by
  induction is with
  | nil => exact ⟨[], rfl, fun _ h => absurd h List.not_mem_nil⟩
  | cons i is ih =>
    obtain ⟨hi, his⟩ := List.cons_subset.1 his
    obtain ⟨new, hnew, hinto⟩ := ih his
    rw [ModuleGraph.requestImports]
    split
    · exact ⟨new, hnew, hinto⟩
    next hskip =>
    have hown : i.module ≠ preludeModule := fun heq => hskip (by simp [heq])
    have himport : i.module ∈ f.summary.imports := by
      rw [hp.imports, List.mem_filter]
      exact ⟨List.mem_map_of_mem hi, by simpa using hown⟩
    obtain ⟨g, hg, hname, hfind⟩ := h.imports f hf _ himport
    obtain ⟨q, hq⟩ := h.stands g hg
    rw [hp.file, hq.file] at hfind
    have hrequest : requestModule fs c s i.module (some i.module) (some p) i.loc =
        .ok (s, [⟨q, some i.module, i.loc⟩]) := by
      rw [requestModule, hfind]
      rfl
    refine ⟨⟨q, some i.module, i.loc⟩ :: new, ?_, List.forall_mem_cons.2 ⟨?_, hinto⟩⟩
    · rw [hrequest]
      show (ModuleGraph.requestImports fs c p s is >>= fun x => pure (x.1, _ ++ x.2)) = _
      rw [hnew]
      rfl
    · exact ⟨g, hg, hq.file, fun n hn => (Option.some.inj hn).symm.trans hname.symm⟩

theorem serve (h : Closed fs c targets found) (hs : s.Inside found (r :: rs)) :
    ∃ s' new, ModuleGraph.serve fs c s r = .ok (s', new) ∧ s'.Inside found (rs ++ new) := by
  obtain ⟨⟨f, hf, hfile, hexpected⟩, hrs⟩ := List.forall_mem_cons.1 hs.requests
  obtain ⟨p, hp⟩ := h.stands f hf
  obtain rfl : r.path = p := Option.some.inj (hfile.symm.trans hp.file)
  have hname : ¬ r.expected.any (· != f.source.name) = true := by
    cases he : r.expected with
    | none => exact Bool.false_ne_true
    | some n =>
      have heq : n = f.source.name := (hexpected n he).trans hp.name
      simp [heq]
  rw [serve_of_source hp.isFile hp.source, addModule, if_neg hname]
  cases hget : s.modules.get? f.source.name with
  | some known =>
    obtain ⟨hknown, hsame⟩ := hs.modules _ _ hget
    obtain rfl := eq_of_name h.nodup hknown hf (hsame.trans hp.name.symm)
    refine ⟨s, [], ?_, hs.problems, hs.modules, by rwa [List.append_nil]⟩
    simp [hp.file]
  | none =>
    have hfound : r.found f.source = f := by
      obtain ⟨⟨module, file, imports⟩, source⟩ := f
      have hname : module = source.name := hp.name
      have hpath : file = some r.path := hfile
      have himports : imports = _ := hp.imports
      rw [Request.found, hname, hpath, himports]
    have hmodules : ∀ n g, (s.modules.put f.source.name (r.found f.source)).get? n = some g →
        g ∈ found ∧ g.name = n := by
      intro n g hg
      rcases Table.eq_or_of_get?_put hg with ⟨rfl, rfl⟩ | ⟨-, hg⟩
      · rw [hfound]
        exact ⟨hf, hp.name⟩
      · exact hs.modules n g hg
    obtain ⟨new, hnew, hinto⟩ := h.requestImports hf hp (List.Subset.refl _)
      { s with modules := s.modules.put f.source.name (r.found f.source) }
    exact ⟨_, new, hnew, hs.problems, hmodules, List.forall_mem_append.2 ⟨hrs, hinto⟩⟩

theorem drains (h : Closed fs c targets found) {out : Except Failure Scan}
    (hdrains : Drains fs c s rs out) (hs : s.Inside found rs) :
    ∃ t, out = .ok t ∧ t.Inside found [] := by
  induction hdrains with
  | done s => exact ⟨s, rfl, hs⟩
  | fails hfail =>
    obtain ⟨s', new, hserve, -⟩ := h.serve hs
    rw [hfail] at hserve
    cases hserve
  | next hserve _ ih =>
    obtain ⟨s', new, hserve', hinside⟩ := h.serve hs
    cases hserve.symm.trans hserve'
    exact ih hinside

theorem requestTargets (h : Closed fs c targets found) {ts : List Target} (hts : ts ⊆ targets)
    (s : Scan) : ∃ rs, ModuleGraph.requestTargets fs c s ts = .ok (s, rs) ∧
      ∀ r ∈ rs, r.Into found := by
  induction ts with
  | nil => exact ⟨[], rfl, fun _ h => absurd h List.not_mem_nil⟩
  | cons t ts ih =>
    obtain ⟨ht, hts⟩ := List.cons_subset.1 hts
    obtain ⟨rs, hrs, hinto⟩ := ih hts
    obtain ⟨f, hf, hfile, hname⟩ := h.targets t ht
    obtain ⟨p, hp⟩ := h.stands f hf
    rw [hp.file] at hfile
    have hrequest : requestTarget fs c s t = .ok (s, [⟨p, expectedName t, .unknown⟩]) := by
      cases t with
      | file q =>
        cases hfile
        rfl
      | module n =>
        have hfind : findModule fs c n none = .ok (some p) := hfile
        rw [requestTarget, requestModule, hfind]
        rfl
      | nothing =>
        have hfind : findModule fs c "None" none = .ok (some p) := hfile
        rw [requestTarget, requestModule, hfind]
        rfl
    refine ⟨⟨p, expectedName t, .unknown⟩ :: rs, ?_, List.forall_mem_cons.2 ⟨?_, hinto⟩⟩
    · rw [ModuleGraph.requestTargets, hrequest]
      show (ModuleGraph.requestTargets fs c s ts >>= fun x => pure (x.1, _ ++ x.2)) = _
      rw [hrs]
      rfl
    · exact ⟨f, hf, hp.file, hname⟩

/-- The search for the targets finds nothing but modules of the graph. -/
theorem scan (h : Closed fs c targets found) :
    ∃ t, ModuleGraph.scan fs c targets = .ok t ∧ t.Inside found [] := by
  obtain ⟨rs, hrs, hinto⟩ := h.requestTargets (List.Subset.refl _) {}
  have hstart : Scan.Inside found {} rs := ⟨rfl, (fun _ _ hf => nomatch hf), hinto⟩
  obtain ⟨t, ht, hinside⟩ := h.drains (drains_scan fs c targets hrs) hstart
  exact ⟨t, ht, hinside⟩

end Closed

theorem Needed.perm (hperm : targets.Perm targets') {n : String}
    (h : Needed fs c targets found n) : Needed fs c targets' found n := by
  induction h with
  | target ht h => exact .target (hperm.subset ht) h
  | imported hf _ hn ih => exact .imported hf ih hn

/-- The targets in another order lead to the same graph, if all searches lead to it. -/
theorem Closed.build (h : Closed fs c targets' found) (hgraph : IsGraph fs c targets found)
    (hperm : targets.Perm targets') :
    ∃ found', ModuleGraph.build fs c targets' = .ok found' ∧ found.Perm found' := by
  obtain ⟨t, ht, hinside⟩ := h.scan
  have hsound := sound_scan ht
  have hvalues {f : Found} (hf : f ∈ t.modules.values) : f ∈ found :=
    (hinside.modules _ f (hsound.get?_name hf)).1
  -- What the graph needs has been found, and it is what the graph has.
  have hall {f : Found} (hf : f ∈ found) : f ∈ t.modules.values := by
    have hneeded : Needed fs c targets' found f.name :=
      ((hgraph.complete _).1 (List.mem_map_of_mem hf)).perm hperm
    have hkey : f.name ∈ t.modules.keys := by
      generalize f.name = n at hneeded
      induction hneeded with
      | target htarget hask => exact hsound.mem_keys_of_needed hinside.problems (.target htarget hask)
      | imported hg _ hn ih =>
        obtain ⟨g', hg', -, hname⟩ := hsound.exists_of_mem_keys ih
        obtain rfl := eq_of_name h.nodup (hvalues hg') hg hname
        exact hsound.imports_subset hinside.problems hg' hn
    obtain ⟨f', hf', -, hname⟩ := hsound.exists_of_mem_keys hkey
    exact eq_of_name h.nodup (hvalues hf') hf hname ▸ hf'
  have hcycle : Graph.findCycle (importsOf t.modules) t.modules.keys = none := by
    rw [← Option.not_isSome_iff_eq_none]
    intro hsome
    obtain ⟨n, hn⟩ := Graph.exists_onCycle_of_findCycle hsome
    refine hgraph.acyclic n (Relation.TransGen.mono (fun a b hab => ?_) n n hn)
    have hab : b ∈ importsOf t.modules a := hab
    unfold importsOf at hab
    split at hab
    · next f hf =>
      obtain ⟨hmem, hname⟩ := hinside.modules a f hf
      exact ⟨f, hmem, hname, (List.mem_filter.1 hab).1⟩
    · cases hab
  have hverdict : t.verdict = [] := by
    rw [Scan.verdict, hinside.problems, hcycle]
    rfl
  have hbuild : ModuleGraph.build fs c targets' = .ok t.ordered := by
    rw [ModuleGraph.build, ht]
    show (if t.verdict.isEmpty then _ else _) = _
    rw [hverdict]
    rfl
  refine ⟨t.ordered, hbuild, ?_⟩
  have hnodup : found.Nodup := h.nodup.of_map _
  have hnodup' : t.ordered.Nodup := (isGraph_of_build hbuild).nodup.of_map _
  refine (List.perm_ext_iff_of_nodup hnodup hnodup').2 fun f => ?_
  rw [mem_ordered hsound hinside.problems]
  exact ⟨hall, hvalues⟩

theorem problems_of_verdict (h : s.verdict = []) : s.problems = [] := by
  unfold Scan.verdict at h
  split at h
  · next hempty => exact List.isEmpty_iff.1 hempty
  · exact h

section

variable (hpaths : ∀ p, some p ∈ c.importPaths → p.Proper)
  (htargets : ∀ p, .file p ∈ targets → p.Proper)
include hpaths htargets

theorem stands_of_build {f : Found} (h : build fs c targets = .ok found) (hf : f ∈ found) :
    ∃ p, f.Stands fs c p := by
  obtain ⟨s, hs, hverdict, rfl⟩ := build_eq_ok h
  have hsound := sound_scan hs
  have hmem := (mem_ordered hsound (problems_of_verdict hverdict)).1 hf
  exact (filed_scan hpaths htargets hs _ f (hsound.get?_name hmem)).2

omit hpaths htargets in
/-- The module in the file of a target is in the graph, from this very place. -/
theorem target_of_build (h : build fs c targets = .ok found) {t : Target} (ht : t ∈ targets) :
    ∃ q m, targetFile fs c t = .ok (some q) ∧
      Surface.parseFile fs c.tabWidth q.render = .ok m ∧ (∀ n ∈ expectedName t, n = m.name) ∧
      ∃ f ∈ found, f.name = m.name ∧ ∀ p ∈ f.summary.file, p.resolve = q.resolve := by
  obtain ⟨s, hs, hverdict, rfl⟩ := build_eq_ok h
  have hno := problems_of_verdict hverdict
  have hsound := sound_scan hs
  obtain ⟨r, m, ⟨hfile, hexpected⟩, -, hm, f, hf, hplace⟩ := settled_scan hs hno t ht
  have hmem := Table.mem_of_get? hf
  refine ⟨r.path, m, hfile, hm.1, hexpected ▸ hm.2, f, ?_, (hsound.read _ hmem).1.symm, hplace⟩
  exact (mem_ordered hsound hno).2 (List.mem_map_of_mem hmem)

theorem closed_of_build (h : build fs c targets = .ok found)
    (hlocated : Located fs c targets (found.map (·.summary))) (hperm : targets.Perm targets') :
    Closed fs c targets' found := by
  have hgraph := isGraph_of_build h
  refine ⟨hgraph.nodup, fun f hf => stands_of_build hpaths htargets h hf, fun t ht => ?_,
    fun f hf n hn => ?_⟩
  · have ht := hperm.symm.subset ht
    obtain ⟨_, hsummary, hfile⟩ := hlocated.targets t ht
    obtain ⟨f, hf, rfl⟩ := List.mem_map.1 hsummary
    refine ⟨f, hf, hfile, fun n hn => ?_⟩
    obtain ⟨q, m, hq, hm, hname, -⟩ := target_of_build h ht
    obtain ⟨p, hp⟩ := stands_of_build hpaths htargets h hf
    have hpath : f.summary.file = some q := Except.ok.inj (hfile.symm.trans hq)
    obtain rfl : p = q := Option.some.inj (hp.file.symm.trans hpath)
    rw [hp.name, Except.ok.inj (hp.source.symm.trans hm)]
    exact hname n hn
  · obtain ⟨_, hsummary, hname, hfind⟩ :=
      hlocated.imports f.summary (List.mem_map_of_mem hf) n hn
    obtain ⟨g, hg, rfl⟩ := List.mem_map.1 hsummary
    exact ⟨g, hg, hname, hfind⟩

end

end ModuleGraph

namespace Session

open ModuleGraph

variable {c : Config} {s t : Session} {loaded more : List Loaded} {found found' : List Found}

-- Checking in another order

theorem lookup?_of_mem (hnodup : (loaded.map (·.summary.module)).Nodup) {l : Loaded}
    (h : l ∈ loaded) : lookup? loaded l.summary.module = some l.checked := by
  have hsome : (lookup? loaded l.summary.module).isSome :=
    isSome_lookup?.2 (List.mem_map_of_mem h)
  obtain ⟨k, hk⟩ := Option.isSome_iff_exists.1 hsome
  obtain ⟨l', hl', rfl⟩ := Option.map_eq_some_iff.1 hk
  have hname : l'.summary.module = l.summary.module := by
    simpa using List.find?_some hl'
  rw [hk, List.inj_on_of_nodup_map hnodup (List.mem_of_find?_eq_some hl') h hname]

theorem Exported.append {n : String} {x : Exports} (h : Exported c loaded n x) :
    Exported c (loaded ++ more) n x := by
  unfold Exported at h ⊢
  split at h
  · next hn =>
    rw [if_pos hn]
    exact h
  · next hn =>
    obtain ⟨k, hk, hx⟩ := h
    rw [if_neg hn]
    exact ⟨k, lookup?_append hk _, hx⟩

/-- Each module was checked against what the modules that it imports export in the end. -/
theorem exists_of_loads (h : Loads c found loaded) {f : Found} (hf : f ∈ found) :
    ∃ xs k, ⟨f.summary, k⟩ ∈ loaded ∧
      List.Forall₂ (Exported c loaded) (importNames c f.source) xs ∧
      Check.module f.source xs = .ok k := by
  induction h with
  | nil => cases hf
  | @snoc found loaded g ys checked _ hys hchecked ih =>
    rcases List.mem_append.1 hf with hf | hf
    · obtain ⟨xs, k, hmem, hxs, hk⟩ := ih hf
      exact ⟨xs, k, List.mem_append_left _ hmem, hxs.imp fun _ _ h => h.append, hk⟩
    · obtain rfl := List.mem_singleton.1 hf
      exact ⟨ys, checked, List.mem_append_right _ (List.mem_singleton_self _),
        hys.imp fun _ _ h => h.append, hchecked⟩

theorem run_exportsOf_of_exported {n : String} {x : Exports} (hs : Sound c s)
    (h : Exported c s.loaded n x) : ((exportsOf n).run s).1 = .ok x := by
  unfold Exported at h
  split at h
  · next hn =>
    obtain ⟨k, hk, rfl⟩ := h
    rw [exportsOf, if_pos hn, run_bind, run_readBundled, hs.bundled, hk]
    rfl
  · next hn =>
    obtain ⟨k, hk, rfl⟩ := h
    rw [run_exportsOf hn, checked?, hk]
    rfl

theorem run_mapM_exportsOf {ns : List String} {xs : List Exports} (hs : Sound c s)
    (h : List.Forall₂ (Exported c s.loaded) ns xs) : ((ns.mapM exportsOf).run s).1 = .ok xs := by
  induction ns generalizing s xs with
  | nil =>
    cases h
    rfl
  | cons n ns ih =>
    obtain ⟨x, xs, hx, hxs, rfl⟩ := List.forall₂_cons_left_iff.1 h
    have hrun := run_exportsOf_of_exported hs hx
    have hsound : Sound c ((exportsOf n).run s).2 := (agrees_exportsOf n).sound hs rfl
    obtain ⟨k, hk⟩ := onlyReads_exportsOf n s
    rw [List.mapM_cons, run_bind]
    rcases hr : (exportsOf n).run s with ⟨r, s'⟩
    rw [hr] at hrun hsound hk
    obtain rfl : s' = { s with kept := k } := hk
    obtain rfl : r = .ok x := hrun
    have hrest := ih hsound hxs
    dsimp only
    rw [run_bind]
    rcases hrs : (ns.mapM exportsOf).run { s with kept := k } with ⟨rs, s''⟩
    rw [hrs] at hrest
    obtain rfl : rs = .ok xs := hrest
    rfl

theorem run_check_of_exported {m : Surface.Module} {xs : List Exports} {k : Checked}
    (hs : Sound c s) (hxs : List.Forall₂ (Exported c s.loaded) (importNames c m) xs)
    (hk : Check.module m xs = .ok k) : ((check m).run s).1 = .ok k := by
  show (((importNames s.config m).mapM exportsOf >>= fun xs =>
    ofExcept (Check.module m xs)).run s).1 = .ok k
  rw [hs.config, run_bind]
  have hrun := run_mapM_exportsOf hs hxs
  rcases hr : ((importNames c m).mapM exportsOf).run s with ⟨r, s'⟩
  rw [hr] at hrun
  obtain rfl : r = .ok xs := hrun
  dsimp only
  rw [hk]
  rfl

/-- Modules that were checked in one order can be checked in every other in which each comes after
those it imports, and they come out the same. -/
theorem run_checkAll_of_loads (hloads : Loads c found loaded)
    (hnodup : (loaded.map (·.summary.module)).Nodup) {fs : Files} {targets : List Target}
    (hgraph : IsGraph fs c targets found') (hsub : found' ⊆ found) {pre todo : List Found}
    (hsplit : found' = pre ++ todo) (hs : Sound c s) (hloaded : s.loaded ⊆ loaded)
    (hpre : s.loaded.map (·.summary) = pre.map (·.summary)) :
    ∃ t, (checkAll todo).run s = (.ok (), t) ∧ t.loaded ⊆ loaded ∧
      t.loaded.map (·.summary) = found'.map (·.summary) := by
  induction todo generalizing pre s with
  | nil =>
    rw [List.append_nil] at hsplit
    exact ⟨s, rfl, hloaded, hsplit ▸ hpre⟩
  | cons f todo ih =>
    have hf : f ∈ found' := hsplit ▸ by simp
    obtain ⟨xs, k, hk, hxs, hmodule⟩ := exists_of_loads hloads (hsub hf)
    have hread := hgraph.read f hf
    have himports : ∀ n ∈ importNames c f.source, n ≠ preludeModule →
        n ∈ s.loaded.map (·.summary.module) := by
      intro n hn hne
      have hmem : n ∈ f.source.imports.map (·.module) := by
        unfold importNames at hn
        dsimp only at hn
        split at hn
        · exact (List.mem_cons.1 hn).resolve_left hne
        · exact hn
      have himport : n ∈ f.summary.imports := by
        rw [hread.imports, List.mem_filter]
        exact ⟨hmem, by simpa using hne⟩
      have hbefore := hgraph.ordered pre f todo hsplit n himport
      have hnames := congrArg (List.map Summary.module) hpre
      rw [List.map_map, List.map_map] at hnames
      exact hnames ▸ hbefore
    have hagree {n : String} {x : Exports} (hn : n ∈ importNames c f.source)
        (h : Exported c loaded n x) : Exported c s.loaded n x := by
      unfold Exported at h ⊢
      split at h
      · next hne =>
        rw [if_pos hne]
        exact h
      · next hne =>
        rw [if_neg hne]
        obtain ⟨k, hk, hx⟩ := h
        obtain ⟨k', hk'⟩ := Option.isSome_iff_exists.1 (isSome_lookup?.2 (himports n hn hne))
        obtain ⟨l', hl', rfl⟩ := Option.map_eq_some_iff.1 hk'
        have hname' : l'.summary.module = n := by simpa using List.find?_some hl'
        have hfinal := lookup?_of_mem hnodup (hloaded (List.mem_of_find?_eq_some hl'))
        rw [hname', hk] at hfinal
        exact ⟨l'.checked, hk', Option.some.inj hfinal ▸ hx⟩
    have hexported {ns : List String} {xs : List Exports} (hns : ns ⊆ importNames c f.source)
        (h : List.Forall₂ (Exported c loaded) ns xs) :
        List.Forall₂ (Exported c s.loaded) ns xs := by
      induction h with
      | nil => exact .nil
      | cons hx _ ih =>
        obtain ⟨hn, hns⟩ := List.cons_subset.1 hns
        exact .cons (hagree hn hx) (ih hns)
    replace hexported := hexported (List.Subset.refl _) hxs
    have hrun := run_check_of_exported hs hexported hmodule
    have hsound : Sound c ((check f.source).run s).2 := (agrees_check f.source).sound hs rfl
    obtain ⟨kept, hkept⟩ := onlyReads_check f.source s
    rw [run_checkAll_cons]
    rcases hr : (check f.source).run s with ⟨r, s'⟩
    rw [hr] at hrun hsound hkept
    obtain rfl : s' = { s with kept } := hkept
    obtain rfl : r = .ok k := hrun
    have hsplit' : found' = (pre ++ [f]) ++ todo := by rw [hsplit, List.append_assoc]; rfl
    refine ih hsplit' ⟨hsound.config, hsound.kept⟩ ?_ ?_
    · exact List.append_subset.2 ⟨hloaded, List.cons_subset.2 ⟨hk, List.nil_subset _⟩⟩
    · rw [List.map_append, List.map_append, hpre]
      rfl

-- Loading in another order

/-- A load that goes well has checked the modules of the graph. -/
theorem exists_of_load {fs : Files} (hs : Sound c s) (h : ((load fs).run s).1 = .ok ()) :
    ∃ found, build fs c s.targets = .ok found ∧ Loads c found ((load fs).run s).2.loaded := by
  obtain rfl := hs.config
  rw [run_load] at h ⊢
  rw [run_loadTargets] at h ⊢
  cases hbuild : build fs s.config s.targets with
  | error e =>
    rw [hbuild] at h
    cases e <;> cases h
  | ok found =>
    rw [hbuild] at h
    have hclear : Sound s.config { s with loaded := [] } := ⟨rfl, hs.kept⟩
    obtain ⟨now, later, rfl, hloads, hall⟩ := loads_checkAll hclear .nil found
    dsimp only at h ⊢
    rcases hr : (checkAll (now ++ later)).run { s with loaded := [] } with ⟨r, t⟩
    rw [hr] at h hloads hall
    cases r with
    | error e => cases e <;> cases h
    | ok u =>
      obtain rfl := hall rfl
      refine ⟨_, rfl, ?_⟩
      rwa [List.append_nil]

theorem load_of_checkAll {fs : Files} (hs : Sound c s) (hbuild : build fs c s.targets = .ok found)
    (h : (checkAll found).run { s with loaded := [] } = (.ok (), t)) :
    ((load fs).run s).1 = .ok () ∧ ((load fs).run s).2.loaded = t.loaded := by
  obtain rfl := hs.config
  rw [run_load, run_loadTargets, hbuild]
  dsimp only
  rw [h]
  exact ⟨rfl, rfl⟩

theorem graph_of_loads (h : Loads c found s.loaded) : s.graph = found.map (·.summary) :=
  h.summaries

/-- The session with the targets in another order. -/
def retarget (s : Session) (targets : List Target) : Session := { s with targets }

theorem Sound.retarget (hs : Sound c s) (targets : List Target) :
    Sound c (s.retarget targets) := ⟨hs.config, hs.kept⟩

/-- Each module of the first graph is in the second, with the same imports and in the same place. -/
def SamePlaces (graph graph' : List Summary) : Prop :=
  ∀ m ∈ graph, ∃ m' ∈ graph', m'.module = m.module ∧ m'.imports = m.imports ∧
    m'.file.map Path.resolve = m.file.map Path.resolve

section

variable {fs : Files} {targets targets' : List Target}
  (hpaths : ∀ p, some p ∈ c.importPaths → p.Proper)
  (htargets : ∀ p, .file p ∈ targets → p.Proper) (hperm : targets.Perm targets')
include hpaths htargets hperm

theorem samePlaces_of_build (h : build fs c targets = .ok found)
    (h' : build fs c targets' = .ok found') :
    SamePlaces (found.map (·.summary)) (found'.map (·.summary)) := by
  obtain ⟨s, hs, hverdict, rfl⟩ := build_eq_ok h
  obtain ⟨t, ht, hverdict', rfl⟩ := build_eq_ok h'
  have hno := problems_of_verdict hverdict
  have hno' := problems_of_verdict hverdict'
  have htargets' : ∀ p, .file p ∈ targets' → p.Proper :=
    fun p hp => htargets p (hperm.symm.subset hp)
  obtain ⟨rs, ts, hlevel⟩ := level_scan hpaths hperm htargets hs ht hno hno'
  have hsound := sound_scan hs
  have hfiled := filed_scan hpaths htargets hs
  have hfiled' := filed_scan hpaths htargets' ht
  intro _ hm
  obtain ⟨f, hf, rfl⟩ := List.mem_map.1 hm
  have hget := hsound.get?_name ((mem_ordered hsound hno).1 hf)
  obtain ⟨-, p, hp⟩ := hfiled _ f hget
  obtain ⟨g, q, hg, hq, hsame⟩ := hlevel.left.modules _ f p hget hp.file
  obtain ⟨hname, q', hq'⟩ := hfiled' _ g hg
  obtain rfl : q' = q := Option.some.inj (hq'.file.symm.trans hq)
  have hmem : g ∈ t.ordered :=
    (mem_ordered (sound_scan ht) hno').2 (List.mem_map_of_mem (Table.mem_of_get? hg))
  have halike : fs.Alike p q' := ⟨hp.isFile, hq'.isFile, hsame⟩
  obtain ⟨-, himports⟩ := halike.outline hp.proper hq'.proper hp.source hq'.source
  refine ⟨g.summary, List.mem_map_of_mem hmem, hname, ?_, ?_⟩
  · rw [hp.imports, hq'.imports, himports]
  · rw [hp.file, hq, Option.map_some, Option.map_some, hsame]

/-- If one order goes well and all searches lead to its graph, every order goes well. -/
theorem load_of_located (hs : Sound c s)
    (h : ((load fs).run (s.retarget targets)).1 = .ok ())
    (hlocated : Located fs c targets ((load fs).run (s.retarget targets)).2.graph) :
    ((load fs).run (s.retarget targets')).1 = .ok () ∧
      ((load fs).run (s.retarget targets)).2.loaded.Perm
        ((load fs).run (s.retarget targets')).2.loaded := by
  obtain ⟨found, hbuild, hloads⟩ := exists_of_load (hs.retarget targets) h
  generalize ((load fs).run (s.retarget targets)).2 = u at hloads hlocated
  replace hbuild : build fs c targets = .ok found := hbuild
  rw [graph_of_loads hloads] at hlocated
  have hgraph := isGraph_of_build hbuild
  have hclosed := closed_of_build hpaths htargets hbuild hlocated hperm
  obtain ⟨found', hbuild', hfound⟩ := hclosed.build hgraph hperm
  have hnames : (u.loaded.map (·.summary.module)).Nodup := by
    have hsummaries := congrArg (List.map Summary.module) hloads.summaries
    rw [List.map_map, List.map_map] at hsummaries
    exact hsummaries ▸ hgraph.nodup
  obtain ⟨t, ht, hsub, hsummaries⟩ := run_checkAll_of_loads hloads hnames
    (isGraph_of_build hbuild') hfound.symm.subset (List.nil_append _).symm
    (s := { s.retarget targets' with loaded := [] }) ⟨hs.config, hs.kept⟩ (List.nil_subset _) rfl
  obtain ⟨hok, hloaded⟩ := load_of_checkAll (hs.retarget targets') hbuild' ht
  refine ⟨hok, ?_⟩
  rw [hloaded]
  have hnames' : (t.loaded.map (·.summary.module)).Nodup := by
    have hall := congrArg (List.map Summary.module) hsummaries
    rw [List.map_map, List.map_map] at hall
    exact hall ▸ (isGraph_of_build hbuild').nodup
  refine (List.perm_ext_iff_of_nodup (hnames.of_map _) (hnames'.of_map _)).2 fun l => ?_
  refine ⟨fun hl => ?_, fun hl => hsub hl⟩
  have hmem : l.summary ∈ t.loaded.map (·.summary) := by
    rw [hsummaries]
    refine (hfound.map _).subset ?_
    rw [← hloads.summaries]
    exact List.mem_map_of_mem hl
  obtain ⟨l', hl', hsummary⟩ := List.mem_map.1 hmem
  have hname : l'.summary.module = l.summary.module := by rw [hsummary]
  exact List.inj_on_of_nodup_map hnames (hsub hl') hl hname ▸ hl'

end

/-- Of two orders of the same targets that both go well, each gives the modules of the other, from
the same places, and with them those of all targets. If one goes well and all its searches lead to
the files that were loaded, so does the other, and all modules come out the same. -/
theorem load_perm {fs : Files} {targets targets' : List Target} (hs : Reachable c s)
    (hpaths : ∀ p, some p ∈ c.importPaths → p.Proper)
    (htargets : ∀ p, .file p ∈ targets → p.Proper) (hperm : targets.Perm targets') :
    let first := (load fs).run (s.retarget targets)
    let second := (load fs).run (s.retarget targets')
    (first.1 = .ok () → second.1 = .ok () →
      SamePlaces first.2.graph second.2.graph ∧ SamePlaces second.2.graph first.2.graph) ∧
    (first.1 = .ok () → ∀ t ∈ targets, ∃ q m, targetFile fs c t = .ok (some q) ∧
      Surface.parseFile fs c.tabWidth q.render = .ok m ∧ ∃ k ∈ first.2.graph,
        k.module = m.name ∧ ∀ p ∈ k.file, p.resolve = q.resolve) ∧
    (first.1 = .ok () ∧ Located fs c targets first.2.graph ↔
      second.1 = .ok () ∧ Located fs c targets' second.2.graph) ∧
    (first.1 = .ok () → Located fs c targets first.2.graph →
      first.2.loaded.Perm second.2.loaded) := by
  intro first second
  have hs := hs.sound
  have htargets' : ∀ p, .file p ∈ targets' → p.Proper :=
    fun p hp => htargets p (hperm.symm.subset hp)
  refine ⟨fun h h' => ?_, fun h t ht => ?_, ?_, fun h hlocated => ?_⟩
  · obtain ⟨found, hbuild, hloads⟩ := exists_of_load (hs.retarget targets) h
    obtain ⟨found', hbuild', hloads'⟩ := exists_of_load (hs.retarget targets') h'
    rw [graph_of_loads hloads, graph_of_loads hloads']
    exact ⟨samePlaces_of_build hpaths htargets hperm hbuild hbuild',
      samePlaces_of_build hpaths htargets' hperm.symm hbuild' hbuild⟩
  · obtain ⟨found, hbuild, hloads⟩ := exists_of_load (hs.retarget targets) h
    obtain ⟨q, m, hq, hm, -, f, hf, hname, hplace⟩ := target_of_build hbuild ht
    refine ⟨q, m, hq, hm, f.summary, ?_, hname, hplace⟩
    rw [graph_of_loads hloads]
    exact List.mem_map_of_mem hf
  · constructor
    · rintro ⟨h, hlocated⟩
      obtain ⟨h', hloaded⟩ := load_of_located hpaths htargets hperm hs h hlocated
      exact ⟨h', hlocated.perm hperm (hloaded.map _)⟩
    · rintro ⟨h, hlocated⟩
      obtain ⟨h', hloaded⟩ := load_of_located hpaths htargets' hperm.symm hs h hlocated
      exact ⟨h', hlocated.perm hperm.symm (hloaded.map _)⟩
  · exact (load_of_located hpaths htargets hperm hs h hlocated).2

/-- The files of two modules, one of which imports the other. -/
def bothFiles : List Target := [.file ⟨0, ["M.hs"]⟩, .file ⟨0, ["A.hs"]⟩]

/-- A new session that has them as targets in that order. -/
def withBoth (targets : List Target) : Session :=
  retarget { config := { implicitPrelude := false } } targets

theorem graph_bothFiles : ((load twoModules).run (withBoth bothFiles)).2.graph =
    [⟨"A", some ⟨0, ["A.hs"]⟩, []⟩, ⟨"Main", some ⟨0, ["M.hs"]⟩, ["A"]⟩] := by decide +kernel

theorem succeeds_bothFiles : ((load twoModules).run (withBoth bothFiles)).1 = .ok () :=
  succeeds_of_toBool (by decide +kernel)

theorem located_bothFiles : Located twoModules { implicitPrelude := false } bothFiles
    ((load twoModules).run (withBoth bothFiles)).2.graph := by
  rw [graph_bothFiles]
  have hfind : findModule twoModules { implicitPrelude := false } "A" (some ⟨0, ["M.hs"]⟩) =
      .ok (some ⟨0, ["A.hs"]⟩) := by decide +kernel
  refine ⟨?_, ?_⟩
  · refine List.forall_mem_cons.2 ⟨?_, List.forall_mem_singleton.2 ?_⟩
    · exact ⟨_, List.mem_cons_of_mem _ (List.mem_cons_self ..), rfl⟩
    · exact ⟨_, List.mem_cons_self .., rfl⟩
  · refine List.forall_mem_cons.2 ⟨fun _ h => absurd h List.not_mem_nil,
      List.forall_mem_singleton.2 (List.forall_mem_singleton.2 ?_)⟩
    exact ⟨_, List.mem_cons_self .., rfl, hfind⟩

theorem proper_bothFiles : ∀ p, .file p ∈ bothFiles → p.Proper := by
  have hm : Path.ofString "M.hs" = ⟨0, ["M.hs"]⟩ := by decide
  have ha : Path.ofString "A.hs" = ⟨0, ["A.hs"]⟩ := by decide
  intro p hp
  rcases List.mem_cons.1 hp with heq | hp
  · cases heq
    exact hm ▸ Path.proper_ofString "M.hs"
  · cases List.mem_singleton.1 hp
    exact ha ▸ Path.proper_ofString "A.hs"

/-- Both orders of the two files go well, and give the same modules. -/
theorem load_perm_bothFiles :
    ((load twoModules).run (withBoth bothFiles.reverse)).1 = .ok () ∧
      ((load twoModules).run (withBoth bothFiles)).2.loaded.Perm
        ((load twoModules).run (withBoth bothFiles.reverse)).2.loaded ∧
      SamePlaces ((load twoModules).run (withBoth bothFiles)).2.graph
        ((load twoModules).run (withBoth bothFiles.reverse)).2.graph := by
  have hfirst := succeeds_bothFiles
  have hlocated := located_bothFiles
  have hreach : Reachable { implicitPrelude := false } _ := .new
  have hperm := @load_perm _ _ twoModules _ _ hreach (fun _ h => absurd h List.not_mem_nil)
    proper_bothFiles (List.reverse_perm bothFiles).symm
  -- The runs are opaque from here on, or unification would load the files.
  unfold withBoth at hfirst hlocated ⊢
  generalize (load twoModules).run
    (retarget { config := { implicitPrelude := false } } bothFiles) = first
    at hfirst hlocated hperm ⊢
  generalize (load twoModules).run
    (retarget { config := { implicitPrelude := false } } bothFiles.reverse) = second at hperm ⊢
  obtain ⟨hplaces, -, hboth, hloaded⟩ := hperm
  have hsecond := (hboth.1 ⟨hfirst, hlocated⟩).1
  exact ⟨hsecond, hloaded hfirst hlocated, (hplaces hfirst hsecond).1⟩

/-- A module that imports another, of which there are two: next to it and in a directory. -/
def twoPlaces : Files :=
  let bytes (text : String) : List UInt8 := text.toList.map fun c => c.toNat.toUInt8
  [(⟨0, ["lib"]⟩, .dir), (⟨0, ["lib", "A.hs"]⟩, .file (bytes "module A\nx = 1")),
    (⟨0, ["A.hs"]⟩, .file (bytes "module A\nx = 2")),
    (⟨0, ["M.hs"]⟩, .file (bytes "module M\nimport A\ny = x"))]

def libraryFirst : List Target := [.file ⟨0, ["lib", "A.hs"]⟩, .file ⟨0, ["M.hs"]⟩]

theorem succeeds_libraryFirst :
    ((load twoPlaces).run (retarget { config := { implicitPrelude := false } } libraryFirst)).1 =
      .ok () := succeeds_of_toBool (by decide +kernel)

theorem fails_libraryLast : ((load twoPlaces).run
    (retarget { config := { implicitPrelude := false } } libraryFirst.reverse)).1.toBool = false := by
  decide +kernel

/-- Only in one order is it seen that there are two modules of one name. -/
theorem load_in_one_order : ¬ ∀ fs c targets targets', targets.Perm targets' →
    ((load fs).run (retarget { config := c } targets)).1 = .ok () →
      ((load fs).run (retarget { config := c } targets')).1 = .ok () := by
  intro h
  have hok := h twoPlaces { implicitPrelude := false } libraryFirst libraryFirst.reverse
    (List.reverse_perm libraryFirst).symm succeeds_libraryFirst
  have hfails := fails_libraryLast
  rw [hok] at hfails
  cases hfails

end Session

end TypeLens
