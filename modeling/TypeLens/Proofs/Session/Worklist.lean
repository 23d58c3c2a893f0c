import Mathlib.Data.List.Nodup
import Mathlib.Data.List.Perm.Subperm
import TypeLens.Session.ModuleGraph

/-!
The work list by which modules are found. Each request is dealt with in turn, and the requests that
it leads to come last. A module that is new has a file of its own, so the list is empty in the end.
What has been asked for is then among the modules, unless there was a problem.
-/

namespace TypeLens

theorem exists_of_bind_eq_ok {ε α β : Type} {x : Except ε α} {k : α → Except ε β} {b : β}
    (h : x >>= k = .ok b) : ∃ a, x = .ok a ∧ k a = .ok b := by
  cases x with
  | error e => cases h
  | ok a => exact ⟨a, rfl, h⟩

namespace Concrete

def TopDecl.headerName? : TopDecl → Option String
  | .header _ n => some n.text
  | _ => none

/-- The name of the module, which does not depend on the file it is read from. -/
def Module.name (m : Module) : String := (m.toList.findSome? TopDecl.headerName?).getD "Main"

end Concrete

namespace Surface

open Concrete

variable {file : Option String}

theorem header_buildTopDecl {p q : Progress} {d : TopDecl} (h : buildTopDecl file p d = .ok q) :
    q.header.map Prod.fst = (p.header.map Prod.fst).or d.headerName? := by
  cases d with
  | header kw n =>
    rw [buildTopDecl] at h
    split at h
    · cases h
    · next hfirst =>
      cases h
      cases hp : p.header with
      | none => rfl
      | some x => simp [hp] at hfirst
  | importDecl kw n =>
    rw [buildTopDecl] at h
    split at h <;> cases h
    exact (Option.or_none).symm
  | decl d =>
    obtain ⟨d', -, h⟩ := exists_of_bind_eq_ok h
    cases h
    exact (Option.or_none).symm

theorem header_foldlM {ds : List TopDecl} {p q : Progress}
    (h : ds.foldlM (buildTopDecl file) p = .ok q) :
    q.header.map Prod.fst = (p.header.map Prod.fst).or (ds.findSome? TopDecl.headerName?) := by
  induction ds generalizing p with
  | nil =>
    cases h
    exact (Option.or_none).symm
  | cons d ds ih =>
    rw [List.foldlM_cons] at h
    obtain ⟨p', hp, h⟩ := exists_of_bind_eq_ok h
    rw [ih h, header_buildTopDecl hp, List.findSome?_cons, Option.or_assoc]
    cases d.headerName? <;> rfl

theorem name_buildModule {c : Concrete.Module} {m : Module} (h : buildModule file c = .ok m) :
    m.name = c.name := by
  obtain ⟨p, hp, h⟩ := exists_of_bind_eq_ok h
  cases h
  have hheader : p.header.map Prod.fst = c.toList.findSome? TopDecl.headerName? := by
    rw [header_foldlM hp]
    rfl
  rw [Concrete.Module.name, ← hheader]
  cases p.header <;> rfl

theorem name_parseModule {w : Int} {source : String} {m : Module}
    (h : parseModule w file source = .ok m) :
    ∃ c, readModule w source = .ok c ∧ m.name = c.name := by
  unfold parseModule at h
  split at h
  · cases h
  cases hc : readModule w source with
  | error e =>
    rw [hc] at h
    cases h
  | ok c =>
    refine ⟨c, rfl, ?_⟩
    simp only [hc] at h
    cases hm : buildModule file c with
    | error f =>
      rw [hm] at h
      cases h
    | ok m' =>
      rw [hm] at h
      cases h
      exact name_buildModule hm

end Surface

namespace Files

variable {fs : Files}

theorem exists_get?_of_walk {p : Path} {parts : List String} {content : List UInt8}
    (h : fs.walk p parts = .ok (.file content)) : ∃ q, fs.get? q = some (.file content) := by
  induction parts generalizing p with
  | nil =>
    unfold walk node? at h
    split at h
    · next n hn =>
      cases h
      split at hn
      · cases hn
      · exact ⟨p, hn⟩
    · cases h
  | cons part parts ih =>
    rw [walk] at h
    split at h
    · split at h
      · cases h
      · exact ih h
    · cases h
    · cases h

theorem exists_get?_of_read {p : Path} {content : List UInt8} (h : fs.read p = .ok content) :
    ∃ q, fs.get? q = some (.file content) := by
  unfold read at h
  split at h
  · next bytes hfind =>
    cases h
    unfold find at hfind
    dsimp only at hfind
    split at hfind
    · cases hfind
    split at hfind
    · cases hfind
    exact exists_get?_of_walk hfind
  · cases h
  · cases h

/-- The name of the module in the file at a path without detours. -/
def nameAt? (fs : Files) (tabWidth : Option Int) (q : Path) : Option String := do
  let w ← tabWidth
  match fs.get? q with
  | some (.file bytes) =>
    let cs ← (Text.Utf8.decode bytes).toOption
    (Surface.readModule w (String.ofList (unifyLines cs))).toOption.map (·.name)
  | _ => none

theorem exists_nameAt?_of_parseFile {w : Option Int} {name : String} {m : Surface.Module}
    (h : Surface.parseFile fs w name = .ok m) : ∃ q ∈ fs.keys, fs.nameAt? w q = some m.name := by
  obtain ⟨source, hs, h⟩ := exists_of_bind_eq_ok h
  unfold Surface.readSource at hs
  split at hs
  · cases hs
  · cases hs
  · next bytes hread =>
    split at hs
    · cases hs
    · next cs hcs =>
      cases hs
      cases w with
      | none => cases h
      | some w =>
        obtain ⟨q, hq⟩ := exists_get?_of_read hread
        obtain ⟨c, hc, hname⟩ := Surface.name_parseModule h
        refine ⟨q, List.mem_map_of_mem (Table.mem_of_get? hq), ?_⟩
        simp [nameAt?, hq, hcs, hc, hname, Except.toOption]

/-- There are not more modules of different names than files. -/
theorem length_le_of_nameAt? {w : Option Int} {names : List String} (hnodup : names.Nodup)
    (h : ∀ n ∈ names, ∃ q ∈ fs.keys, fs.nameAt? w q = some n) : names.length ≤ fs.length := by
  have hsub : names ⊆ fs.keys.filterMap (fs.nameAt? w) := fun n hn => by
    obtain ⟨q, hq, hname⟩ := h n hn
    exact List.mem_filterMap.2 ⟨q, hq, hname⟩
  calc names.length ≤ (fs.keys.filterMap (fs.nameAt? w)).length :=
        (hnodup.subperm hsub).length_le
    _ ≤ fs.keys.length := List.length_filterMap_le ..
    _ = fs.length := List.length_map _

end Files

namespace ModuleGraph

variable {fs : Files} {c : Config} {s s' : Scan} {r : Request} {rs new : List Request}
  {targets : List Target}

def Found.name (f : Found) : String := f.summary.module

/-- A module as it stands in its file. -/
structure Found.IsRead (fs : Files) (c : Config) (f : Found) : Prop where
  source : ∃ p, f.summary.file = some p ∧
    Surface.parseFile fs c.tabWidth p.render = .ok f.source
  name : f.name = f.source.name
  imports : f.summary.imports = (f.source.imports.map (·.module)).filter (· != preludeModule)

/-- The module is in the file of the request, and it is the one that is expected there. -/
def Request.Yields (fs : Files) (c : Config) (r : Request) (m : Surface.Module) : Prop :=
  Surface.parseFile fs c.tabWidth r.path.render = .ok m ∧ ∀ e ∈ r.expected, e = m.name

/-- The target asks for the module of that name. -/
inductive Asks (fs : Files) (c : Config) : Target → String → Prop
  | file {p : Path} {m : Surface.Module} (h : Surface.parseFile fs c.tabWidth p.render = .ok m) :
      Asks fs c (.file p) m.name
  | module (name : String) : Asks fs c (.module name) name
  | nothing {p : Path} {m : Surface.Module} (hp : findModule fs c "None" none = .ok (some p))
      (h : Surface.parseFile fs c.tabWidth p.render = .ok m) : Asks fs c .nothing m.name

/-- The modules of the targets and those that they import, directly or not, where `found` says what
a module imports. -/
inductive Needed (fs : Files) (c : Config) (targets : List Target) (found : List Found) :
    String → Prop
  | target {t : Target} {n : String} (ht : t ∈ targets) (h : Asks fs c t n) :
      Needed fs c targets found n
  | imported {f : Found} {n : String} (hf : f ∈ found) (h : Needed fs c targets found f.name)
      (hn : n ∈ f.summary.imports) : Needed fs c targets found n

theorem Needed.mono {found found' : List Found} (hsub : found ⊆ found') {n : String}
    (h : Needed fs c targets found n) : Needed fs c targets found' n := by
  induction h with
  | target ht h => exact .target ht h
  | imported hf _ hn ih => exact .imported (hsub hf) ih hn

-- What a step does

theorem requestModule_eq_ok {module : String} {expected : Option String} {near : Option Path}
    {loc : Span} (h : requestModule fs c s module expected near loc = .ok (s', new)) :
    (∃ d, s' = s.add d ∧ new = []) ∨
      s' = s ∧ ∃ p, findModule fs c module near = .ok (some p) ∧ new = [⟨p, expected, loc⟩] := by
  obtain ⟨p, hp, h⟩ := exists_of_bind_eq_ok h
  cases p with
  | none =>
    cases h
    exact .inl ⟨_, rfl, rfl⟩
  | some p =>
    cases h
    exact .inr ⟨rfl, p, hp, rfl⟩

/-- What requests come of a list of things that ask for modules: modules stay as they are, problems
are added, each request is for one of the things, and each thing is dealt with unless there is a
problem. -/
structure Asked {α : Type} (for_ : α → Request → Prop) (settled : α → Prop) (as : List α)
    (s s' : Scan) (new : List Request) : Prop where
  modules : s'.modules = s.modules
  problems : s.problems <+: s'.problems
  sound : ∀ r ∈ new, ∃ a ∈ as, for_ a r
  complete : s'.problems = [] → ∀ a ∈ as, settled a ∨ ∃ r ∈ new, for_ a r

theorem ne_nil_of_add (d : Diagnostic) : (s.add d).problems ≠ [] := by simp [Scan.add]

namespace Asked

variable {α : Type} {for_ : α → Request → Prop} {settled : α → Prop} {a : α} {as : List α}

theorem nil : Asked for_ settled [] s s [] :=
  ⟨rfl, List.prefix_rfl, fun _ h => absurd h List.not_mem_nil, fun _ _ h => absurd h List.not_mem_nil⟩

theorem skip (ha : settled a) (h : Asked for_ settled as s s' new) :
    Asked for_ settled (a :: as) s s' new where
  modules := h.modules
  problems := h.problems
  sound r hr := by
    obtain ⟨b, hb, hfor⟩ := h.sound r hr
    exact ⟨b, List.mem_cons_of_mem a hb, hfor⟩
  complete hnone := List.forall_mem_cons.2 ⟨.inl ha, h.complete hnone⟩

theorem cons {s₁ : Scan} {new₁ : List Request}
    (ha : (∃ d, s₁ = s.add d ∧ new₁ = []) ∨ s₁ = s ∧ ∃ r, for_ a r ∧ new₁ = [r])
    (h : Asked for_ settled as s₁ s' new) : Asked for_ settled (a :: as) s s' (new₁ ++ new) := by
  have hlater : ∀ r ∈ new, ∃ b ∈ a :: as, for_ b r := by
    intro r hr
    obtain ⟨b, hb, hfor⟩ := h.sound r hr
    exact ⟨b, List.mem_cons_of_mem a hb, hfor⟩
  rcases ha with ⟨d, rfl, rfl⟩ | ⟨rfl, r, hr, rfl⟩
  · refine ⟨h.modules, (List.prefix_append _ _).trans h.problems, hlater, fun hnone => ?_⟩
    exact absurd (List.prefix_nil.1 (hnone ▸ h.problems)) (ne_nil_of_add d)
  · refine ⟨h.modules, h.problems, List.forall_mem_cons.2 ⟨⟨a, List.mem_cons_self .., hr⟩, hlater⟩,
      fun hnone => List.forall_mem_cons.2 ⟨.inr ⟨r, List.mem_cons_self .., hr⟩, ?_⟩⟩
    intro b hb
    refine (h.complete hnone b hb).imp_right ?_
    rintro ⟨q, hq, hfor⟩
    exact ⟨q, List.mem_cons_of_mem r hq, hfor⟩

end Asked

/-- The request is for a module that a file imports, where the search from that file finds it. -/
structure Sought (fs : Files) (c : Config) (near : Path) (i : Surface.ImportDecl) (r : Request) :
    Prop where
  own : i.module ≠ preludeModule
  expected : r.expected = some i.module
  found : findModule fs c i.module (some near) = .ok (some r.path)

theorem asked_requestImports {near : Path} {is : List Surface.ImportDecl}
    (h : requestImports fs c near s is = .ok (s', new)) :
    Asked (Sought fs c near) (fun i => i.module = preludeModule ∨ i.module ∈ s.modules.keys) is s s' new := by
  induction is generalizing s new with
  | nil =>
    cases h
    exact .nil
  | cons i is ih =>
    rw [requestImports] at h
    split at h
    · next hskip =>
      refine (ih h).skip ?_
      rw [Bool.or_eq_true, decide_eq_true_eq] at hskip
      refine hskip.imp_right fun hmem => ?_
      rw [Table.contains, Option.isSome_iff_ne_none] at hmem
      exact not_not.1 fun hnot => hmem (Table.get?_eq_none_iff.2 hnot)
    · next hskip =>
      obtain ⟨⟨s₁, new₁⟩, hreq, h⟩ := exists_of_bind_eq_ok h
      obtain ⟨⟨s₂, new₂⟩, hrest, h⟩ := exists_of_bind_eq_ok h
      cases h
      have hnot : i.module ≠ preludeModule := fun heq => hskip (by simp [heq])
      have hfirst := requestModule_eq_ok hreq
      have hmodules : s₁.modules = s.modules := by
        rcases hfirst with ⟨d, rfl, -⟩ | ⟨rfl, -⟩ <;> rfl
      have hrest := ih hrest
      rw [hmodules] at hrest
      refine .cons (hfirst.imp_right ?_) hrest
      rintro ⟨hs, p, hp, hnew⟩
      exact ⟨hs, _, ⟨hnot, rfl, hp⟩, hnew⟩

theorem asked_requestTargets (h : requestTargets fs c s targets = .ok (s', new)) :
    Asked (fun t r => ∀ m, r.Yields fs c m → Asks fs c t m.name) (fun _ => False) targets s s'
      new := by
  induction targets generalizing s new with
  | nil =>
    cases h
    exact .nil
  | cons t ts ih =>
    obtain ⟨⟨s₁, new₁⟩, hreq, h⟩ := exists_of_bind_eq_ok h
    obtain ⟨⟨s₂, new₂⟩, hrest, h⟩ := exists_of_bind_eq_ok h
    cases h
    refine .cons ?_ (ih hrest)
    cases t with
    | file p =>
      cases hreq
      exact .inr ⟨rfl, ⟨p, none, .unknown⟩, fun m hm => .file hm.1, rfl⟩
    | module name =>
      refine (requestModule_eq_ok hreq).imp_right ?_
      rintro ⟨hs, p, -, hnew⟩
      refine ⟨hs, ⟨p, some name, .unknown⟩, fun m hm => ?_, hnew⟩
      rw [← hm.2 name rfl]
      exact .module name
    | nothing =>
      refine (requestModule_eq_ok hreq).imp_right ?_
      rintro ⟨hs, p, hp, hnew⟩
      exact ⟨hs, ⟨p, none, .unknown⟩, fun m hm => .nothing hp hm.1, hnew⟩

/-- A module as it is filed with the request that led to it. -/
def Request.found (r : Request) (m : Surface.Module) : Found :=
  ⟨⟨m.name, some r.path, (m.imports.map (·.module)).filter (· != preludeModule)⟩, m⟩

/-- Dealing with a request ends with a problem, with a module that is known from the same file, or
with one that is new, whose imports are asked for. -/
theorem serve_eq_ok (h : serve fs c s r = .ok (s', new)) :
    (∃ d, s' = s.add d ∧ new = []) ∨
      ∃ m, fs.isFile r.path = .ok true ∧ r.Yields fs c m ∧
        ((s' = s ∧ new = [] ∧ ∃ f, s.modules.get? m.name = some f ∧
            ∀ p ∈ f.summary.file, p.resolve = r.path.resolve) ∨
          s.modules.get? m.name = none ∧
            requestImports fs c r.path { s with modules := s.modules.put m.name (r.found m) }
              m.imports = .ok (s', new)) := by
  obtain ⟨isFile, hfile, h⟩ := exists_of_bind_eq_ok h
  split at h
  · next htrue =>
    rw [htrue] at hfile
    obtain ⟨m, hm, h⟩ := exists_of_bind_eq_ok h
    unfold addModule at h
    split at h
    · cases h
      exact .inl ⟨_, rfl, rfl⟩
    · next hexpected =>
      have hyields : r.Yields fs c m := by
        refine ⟨hm, fun e he => ?_⟩
        rw [Option.mem_def] at he
        simpa [he] using hexpected
      split at h
      · next known hknown =>
        split at h
        · next p hp =>
          cases h
          split
          · next hsame =>
            refine .inr ⟨m, hfile, hyields, .inl ⟨rfl, rfl, known, hknown, fun q hq => ?_⟩⟩
            rw [hp] at hq
            exact Option.some.inj hq ▸ hsame
          · exact .inl ⟨_, rfl, rfl⟩
        · next hnone =>
          cases h
          refine .inr ⟨m, hfile, hyields, .inl ⟨rfl, rfl, known, hknown, fun q hq => ?_⟩⟩
          rw [hnone] at hq
          cases hq
      · next hnew => exact .inr ⟨m, hfile, hyields, .inr ⟨hnew, h⟩⟩
  · cases h
    exact .inl ⟨_, rfl, rfl⟩

-- What holds on the way

/-- Some module with the property is there, or a request can only lead to such a module. -/
def Scan.Covers (fs : Files) (c : Config) (s : Scan) (pending : List Request)
    (P : String → Prop) : Prop :=
  (∃ n ∈ s.modules.keys, P n) ∨ ∃ r ∈ pending, ∀ m, r.Yields fs c m → P m.name

/-- The state of the work list: modules are as they are read, each is needed, and unless there is a
problem, all that is needed is there or asked for. -/
structure Scan.Sound (fs : Files) (c : Config) (targets : List Target) (s : Scan)
    (pending : List Request) : Prop where
  nodup : s.modules.keys.Nodup
  read : ∀ x ∈ s.modules, x.1 = x.2.name ∧ x.2.IsRead fs c
  needed : ∀ n ∈ s.modules.keys, Needed fs c targets s.modules.values n
  requests : ∀ r ∈ pending, ∀ m, r.Yields fs c m → Needed fs c targets s.modules.values m.name
  imports : s.problems = [] → ∀ f ∈ s.modules.values, ∀ n ∈ f.summary.imports,
    s.Covers fs c pending (· = n)
  targets : s.problems = [] → ∀ t ∈ targets, s.Covers fs c pending (Asks fs c t)

theorem sound_requestTargets (h : requestTargets fs c {} targets = .ok (s, rs)) :
    s.Sound fs c targets rs := by
  have hasked := asked_requestTargets h
  have hmodules : s.modules = [] := hasked.modules
  refine ⟨?_, ?_, ?_, fun r hr m hm => ?_, ?_, fun hnone t ht => ?_⟩
  · simp [hmodules, Table.keys]
  · simp [hmodules]
  · simp [hmodules, Table.keys]
  · obtain ⟨t, ht, hask⟩ := hasked.sound r hr
    exact .target ht (hask m hm)
  · simp [hmodules, Table.values]
  · exact .inr ((hasked.complete hnone t ht).resolve_left id)

theorem Scan.Covers.mono {P : String → Prop} {pending pending' : List Request}
    (h : s.Covers fs c pending P) (hkeys : s.modules.keys ⊆ s'.modules.keys)
    (hpending : ∀ r ∈ pending, r ∈ pending' ∨ ∃ m, r.Yields fs c m ∧ m.name ∈ s'.modules.keys) :
    s'.Covers fs c pending' P := by
  rcases h with ⟨n, hn, hP⟩ | ⟨r, hr, hP⟩
  · exact .inl ⟨n, hkeys hn, hP⟩
  · rcases hpending r hr with hr | ⟨m, hm, hmem⟩
    · exact .inr ⟨r, hr, hP⟩
    · exact .inl ⟨m.name, hmem, hP m hm⟩

/-- A request with a problem may go: there is nothing left to be shown to be complete. -/
theorem Scan.Sound.add (h : s.Sound fs c targets (r :: rs)) (d : Diagnostic) :
    (s.add d).Sound fs c targets rs where
  nodup := h.nodup
  read := h.read
  needed := h.needed
  requests q hq := h.requests q (List.mem_cons_of_mem r hq)
  imports hnone := absurd hnone (ne_nil_of_add d)
  targets hnone := absurd hnone (ne_nil_of_add d)

theorem Scan.Sound.known (h : s.Sound fs c targets (r :: rs)) {m : Surface.Module}
    (hm : r.Yields fs c m) (hmem : m.name ∈ s.modules.keys) : s.Sound fs c targets rs := by
  have hcovers {P : String → Prop} (hP : s.Covers fs c (r :: rs) P) : s.Covers fs c rs P := by
    refine hP.mono (List.Subset.refl _) fun q hq => ?_
    rcases List.mem_cons.1 hq with rfl | hq
    · exact .inr ⟨m, hm, hmem⟩
    · exact .inl hq
  exact {
    nodup := h.nodup
    read := h.read
    needed := h.needed
    requests := fun q hq => h.requests q (List.mem_cons_of_mem r hq)
    imports := fun hnone f hf n hn => hcovers (h.imports hnone f hf n hn)
    targets := fun hnone t ht => hcovers (h.targets hnone t ht) }

theorem Scan.Sound.found (h : s.Sound fs c targets (r :: rs)) {m : Surface.Module}
    (hm : r.Yields fs c m) (hnew : s.modules.get? m.name = none)
    (hrequest : requestImports fs c r.path
      { s with modules := s.modules.put m.name (r.found m) } m.imports = .ok (s', new)) :
    s'.Sound fs c targets (rs ++ new) := by
  have hasked := asked_requestImports hrequest
  have hmodules : s'.modules = s.modules ++ [(m.name, r.found m)] := by
    rw [hasked.modules]
    exact Table.put_of_none hnew _
  have hkeys : s'.modules.keys = s.modules.keys ++ [m.name] := by
    rw [hmodules, Table.keys, List.map_append]
    rfl
  have hvalues : s'.modules.values = s.modules.values ++ [r.found m] := by
    rw [hmodules, Table.values, List.map_append]
    rfl
  have hsub : s.modules.values ⊆ s'.modules.values := hvalues ▸ List.subset_append_left _ _
  have hnone (hnone : s'.problems = []) : s.problems = [] :=
    List.prefix_nil.1 (hnone ▸ hasked.problems)
  have hneeded : Needed fs c targets s'.modules.values m.name :=
    (h.requests r (List.mem_cons_self ..) m hm).mono hsub
  have hcovers {P : String → Prop} (hP : s.Covers fs c (r :: rs) P) :
      s'.Covers fs c (rs ++ new) P := by
    refine hP.mono (hkeys ▸ List.subset_append_left _ _) fun q hq => ?_
    rcases List.mem_cons.1 hq with rfl | hq
    · exact .inr ⟨m, hm, hkeys ▸ by simp⟩
    · exact .inl (List.mem_append_left _ hq)
  refine ⟨?_, ?_, ?_, ?_, fun hno f hf n hn => ?_, fun hno t ht => hcovers (h.targets (hnone hno) t ht)⟩
  · rw [hkeys]
    exact List.nodup_append.2 ⟨h.nodup, List.nodup_singleton _, fun a ha b hb => by
      obtain rfl := List.mem_singleton.1 hb
      exact fun heq => Table.get?_eq_none_iff.1 hnew (heq ▸ ha)⟩
  · rw [hmodules]
    exact List.forall_mem_append.2
      ⟨h.read, List.forall_mem_singleton.2 ⟨rfl, ⟨r.path, rfl, hm.1⟩, rfl, rfl⟩⟩
  · rw [hkeys]
    exact List.forall_mem_append.2
      ⟨fun n hn => (h.needed n hn).mono hsub, List.forall_mem_singleton.2 hneeded⟩
  · intro q hq m' hm'
    rcases List.mem_append.1 hq with hq | hq
    · exact (h.requests q (List.mem_cons_of_mem r hq) m' hm').mono hsub
    · obtain ⟨i, hi, hnot, hexpected, -⟩ := hasked.sound q hq
      refine .imported (f := r.found m) (hvalues ▸ by simp) hneeded ?_
      rw [← hm'.2 i.module hexpected]
      exact List.mem_filter.2 ⟨List.mem_map_of_mem hi, by simpa using hnot⟩
  · rw [hvalues, List.mem_append, List.mem_singleton] at hf
    rcases hf with hf | rfl
    · exact hcovers (h.imports (hnone hno) f hf n hn)
    · obtain ⟨hn, hnot⟩ := List.mem_filter.1 hn
      obtain ⟨i, hi, rfl⟩ := List.mem_map.1 hn
      rcases hasked.complete hno i hi with (heq | hmem) | ⟨q, hq, -, hexpected, -⟩
      · simp [heq] at hnot
      · rw [← hasked.modules] at hmem
        exact .inl ⟨i.module, hmem, rfl⟩
      · exact .inr ⟨q, List.mem_append_right _ hq, fun m' hm' => (hm'.2 _ hexpected).symm⟩

theorem sound_serve (h : s.Sound fs c targets (r :: rs)) (hserve : serve fs c s r = .ok (s', new)) :
    s'.Sound fs c targets (rs ++ new) := by
  rcases serve_eq_ok hserve with
    ⟨d, rfl, rfl⟩ | ⟨m, -, hm, ⟨rfl, rfl, f, hf, -⟩ | ⟨hnew, hrequest⟩⟩
  · rw [List.append_nil]
    exact h.add d
  · rw [List.append_nil]
    exact h.known hm (List.mem_map_of_mem (Table.mem_of_get? hf))
  · exact h.found hm hnew hrequest

-- The list as a queue

/-- The work on a list of requests, the first of which is dealt with next, ends as it says. -/
inductive Drains (fs : Files) (c : Config) : Scan → List Request → Except Failure Scan → Prop
  | done (s : Scan) : Drains fs c s [] (.ok s)
  | fails {s : Scan} {r : Request} {e : Failure} (h : serve fs c s r = .error e)
      (rs : List Request) : Drains fs c s (r :: rs) (.error e)
  | next {s s' : Scan} {r : Request} {rs new : List Request} {out : Except Failure Scan}
      (h : serve fs c s r = .ok (s', new)) (hrest : Drains fs c s' (rs ++ new) out) :
      Drains fs c s (r :: rs) out

theorem Drains.sound {out : Except Failure Scan} (h : Drains fs c s rs out)
    (hs : s.Sound fs c targets rs) : ∀ t, out = .ok t → t.Sound fs c targets [] := by
  induction h with
  | done =>
    rintro _ ⟨⟩
    exact hs
  | fails => exact fun _ h => nomatch h
  | next hserve _ ih => exact ih (sound_serve hs hserve)

theorem Drains.round_ok {out : Except Failure Scan} (hround : serveAll fs c s rs = .ok (s', new))
    {later : List Request} (h : Drains fs c s' (later ++ new) out) :
    Drains fs c s (rs ++ later) out := by
  induction rs generalizing s new later with
  | nil =>
    cases hround
    rwa [List.append_nil] at h
  | cons r rs ih =>
    obtain ⟨⟨s₁, new₁⟩, hserve, hround⟩ := exists_of_bind_eq_ok hround
    obtain ⟨⟨s₂, new₂⟩, hrest, heq⟩ := exists_of_bind_eq_ok hround
    cases heq
    have hlater : Drains fs c s₁ (rs ++ (later ++ new₁)) out :=
      ih hrest (by rwa [List.append_assoc])
    rw [← List.append_assoc] at hlater
    exact .next hserve hlater

theorem Drains.round_error {e : Failure} (hround : serveAll fs c s rs = .error e)
    (later : List Request) : Drains fs c s (rs ++ later) (.error e) := by
  induction rs generalizing s later with
  | nil => cases hround
  | cons r rs ih =>
    rw [serveAll] at hround
    cases hserve : serve fs c s r with
    | error e' =>
      rw [hserve] at hround
      cases hround
      exact .fails hserve _
    | ok x =>
      obtain ⟨s₁, new₁⟩ := x
      rw [hserve] at hround
      cases hrest : serveAll fs c s₁ rs with
      | ok y =>
        have hround : (serveAll fs c s₁ rs >>= fun y => pure (y.1, new₁ ++ y.2)) = .error e := hround
        rw [hrest] at hround
        cases hround
      | error e' =>
        have hround : (serveAll fs c s₁ rs >>= fun y => pure (y.1, new₁ ++ y.2)) = .error e := hround
        rw [hrest] at hround
        cases hround
        have hlater : Drains fs c s₁ (rs ++ (later ++ new₁)) (.error e) := ih hrest _
        rw [← List.append_assoc] at hlater
        exact .next hserve hlater

/-- A round keeps the modules, and finds a new one if there is more to do after it. -/
theorem length_serveAll (h : serveAll fs c s rs = .ok (s', new)) :
    s.modules.length ≤ s'.modules.length ∧ (new ≠ [] → s.modules.length < s'.modules.length) := by
  induction rs generalizing s new with
  | nil =>
    cases h
    exact ⟨Nat.le_refl _, fun hne => absurd rfl hne⟩
  | cons r rs ih =>
    obtain ⟨⟨s₁, new₁⟩, hserve, h⟩ := exists_of_bind_eq_ok h
    obtain ⟨⟨s₂, new₂⟩, hrest, h⟩ := exists_of_bind_eq_ok h
    cases h
    obtain ⟨hle, hlt⟩ := ih hrest
    rcases serve_eq_ok hserve with
      ⟨d, rfl, rfl⟩ | ⟨m, -, -, ⟨rfl, rfl, -⟩ | ⟨hnew, hrequest⟩⟩
    · exact ⟨hle, hlt⟩
    · exact ⟨hle, hlt⟩
    · have hlength : s₁.modules.length = s.modules.length + 1 := by
        rw [(asked_requestImports hrequest).modules]
        exact Table.length_put_of_none hnew _
      omega

theorem length_le_of_sound (h : s.Sound fs c targets rs) : s.modules.length ≤ fs.length := by
  have hlength : s.modules.keys.length = s.modules.length := List.length_map _
  rw [← hlength]
  refine Files.length_le_of_nameAt? (w := c.tabWidth) h.nodup fun n hn => ?_
  obtain ⟨x, hx, rfl⟩ := List.mem_map.1 hn
  obtain ⟨hname, ⟨p, -, hparse⟩, hsource, -⟩ := h.read x hx
  rw [hname, hsource]
  exact Files.exists_nameAt?_of_parseFile hparse

theorem sound_serveAll (hround : serveAll fs c s rs = .ok (s', new)) {later : List Request}
    (h : s.Sound fs c targets (rs ++ later)) : s'.Sound fs c targets (later ++ new) := by
  induction rs generalizing s new later with
  | nil =>
    cases hround
    rwa [List.append_nil]
  | cons r rs ih =>
    obtain ⟨⟨s₁, new₁⟩, hserve, hround⟩ := exists_of_bind_eq_ok hround
    obtain ⟨⟨s₂, new₂⟩, hrest, heq⟩ := exists_of_bind_eq_ok hround
    cases heq
    have hfirst : s₁.Sound fs c targets (rs ++ later ++ new₁) := sound_serve h hserve
    rw [List.append_assoc] at hfirst
    rw [← List.append_assoc]
    exact ih hrest hfirst

/-- Rounds deal with all requests if there are as many as there are files still to be found, and one
more. -/
theorem drains_rounds {n : Nat} (h : s.Sound fs c targets rs)
    (hn : fs.length < n + s.modules.length) : Drains fs c s rs (rounds fs c n s rs) := by
  induction n generalizing s rs with
  | zero =>
    have hle := length_le_of_sound h
    omega
  | succ n ih =>
    rw [rounds]
    split
    · next hempty =>
      obtain rfl := List.isEmpty_iff.1 hempty
      exact .done s
    cases hround : serveAll fs c s rs with
    | error e =>
      have hdrains := Drains.round_error hround []
      rwa [List.append_nil] at hdrains
    | ok x =>
      obtain ⟨s', new⟩ := x
      have hsound : s'.Sound fs c targets ([] ++ new) :=
        sound_serveAll hround (by rwa [List.append_nil])
      have hrest : Drains fs c s' new (rounds fs c n s' new) := by
        by_cases hnew : new = []
        · -- There is nothing left to do, whatever the number of rounds.
          subst hnew
          cases n <;> exact .done s'
        · have hlt := (length_serveAll hround).2 hnew
          exact ih hsound (by omega)
      have hdrains : Drains fs c s (rs ++ []) _ := .round_ok hround hrest
      rwa [List.append_nil] at hdrains

variable (fs c targets) in
/-- The loop over the requests comes to an end when there are none left, or at a failure. -/
theorem drains_scan (h : requestTargets fs c {} targets = .ok (s, rs)) :
    Drains fs c s rs (scan fs c targets) := by
  have hmodules : s.modules = [] := (asked_requestTargets h).modules
  rw [scan, h]
  exact drains_rounds (sound_requestTargets h) (by rw [hmodules]; exact Nat.lt_succ_self _)

theorem sound_scan (h : scan fs c targets = .ok s) : s.Sound fs c targets [] := by
  obtain ⟨⟨s₀, rs⟩, hrequest, -⟩ := exists_of_bind_eq_ok h
  exact (h ▸ drains_scan fs c targets hrequest).sound (sound_requestTargets hrequest) s rfl

theorem build_eq_ok {found : List Found} (h : build fs c targets = .ok found) :
    ∃ s, scan fs c targets = .ok s ∧ s.verdict = [] ∧ found = s.ordered := by
  obtain ⟨s, hs, h⟩ := exists_of_bind_eq_ok h
  split at h
  · next hverdict =>
    cases h
    exact ⟨s, hs, List.isEmpty_iff.1 hverdict, rfl⟩
  · cases h

theorem isRead_of_build {found : List Found} (h : build fs c targets = .ok found) :
    ∀ f ∈ found, f.IsRead fs c := by
  obtain ⟨s, hs, -, rfl⟩ := build_eq_ok h
  intro f hf
  obtain ⟨n, -, hget⟩ := List.mem_filterMap.1 hf
  exact ((sound_scan hs).read _ (Table.mem_of_get? hget)).2

end ModuleGraph

end TypeLens
