import TypeLens.Proofs.Files.Paths
import TypeLens.Proofs.Session.Failures
import TypeLens.Proofs.Session.Worklist

/-!
The search for modules round by round. It gives proper paths, and what is found from a file depends
on the place of the file only, and not on how its path is spelled. A round finds the modules that
its requests are for, and asks for what these modules import. So two searches that begin with the
same requests, in whatever order, find the same modules in the same places, unless one of them ends
with a problem.
-/

namespace TypeLens

namespace Concrete

def TopDecl.importName? : TopDecl → Option String
  | .importDecl _ n => some n.text
  | _ => none

/-- The names of the modules that are imported, whatever file the module is read from. -/
def Module.importNames (m : Module) : List String := m.toList.filterMap TopDecl.importName?

end Concrete

namespace Surface

open Concrete

variable {file : Option String}

theorem importNames_buildTopDecl {p q : Progress} {d : TopDecl} (h : buildTopDecl file p d = .ok q) :
    q.imports.map (·.module) = p.imports.map (·.module) ++ d.importName?.toList := by
  cases d with
  | header kw n =>
    rw [buildTopDecl] at h
    split at h <;> cases h
    exact (List.append_nil _).symm
  | importDecl kw n =>
    rw [buildTopDecl] at h
    split at h <;> cases h
    exact List.map_append
  | decl d =>
    obtain ⟨d', -, h⟩ := exists_of_bind_eq_ok h
    cases h
    exact (List.append_nil _).symm

theorem importNames_foldlM {ds : List TopDecl} {p q : Progress}
    (h : ds.foldlM (buildTopDecl file) p = .ok q) :
    q.imports.map (·.module) = p.imports.map (·.module) ++ ds.filterMap TopDecl.importName? := by
  induction ds generalizing p with
  | nil =>
    cases h
    exact (List.append_nil _).symm
  | cons d ds ih =>
    rw [List.foldlM_cons] at h
    obtain ⟨p', hp, h⟩ := exists_of_bind_eq_ok h
    rw [ih h, importNames_buildTopDecl hp, List.append_assoc, List.filterMap_cons]
    cases d.importName? <;> rfl

/-- What a module is called and what it imports do not depend on the name of its file. -/
theorem outline_parseModule {w : Int} {source : String} {m : Module}
    (h : parseModule w file source = .ok m) :
    ∃ c, readModule w source = .ok c ∧ m.name = c.name ∧
      m.imports.map (·.module) = c.importNames := by
  obtain ⟨c, hc, hname⟩ := name_parseModule h
  refine ⟨c, hc, hname, ?_⟩
  unfold parseModule at h
  split at h
  · cases h
  simp only [hc] at h
  cases hm : buildModule file c with
  | error f =>
    rw [hm] at h
    cases h
  | ok m' =>
    rw [hm] at h
    cases h
    obtain ⟨p, hp, hm⟩ := exists_of_bind_eq_ok hm
    cases hm
    exact importNames_foldlM hp

end Surface

namespace Path.Proper

theorem moduleFile {module : String} {p : Path} (h : TypeLens.moduleFile module = .ok p) :
    p.Proper := by
  have hfold {ps : List Path} (hps : ∀ q ∈ ps, q.Proper) {d : Path} (hd : d.Proper) :
      (ps.foldl Path.join d).Proper := by
    induction ps generalizing d with
    | nil => exact hd
    | cons q ps ih =>
      obtain ⟨hq, hps⟩ := List.forall_mem_cons.1 hps
      exact ih hps (hd.join hq)
  have hall : (((Text.splitString '.' module).map Path.ofString).foldl Path.join .here).Proper := by
    refine hfold (fun q hq => ?_) ⟨Nat.zero_le _, fun _ h => absurd h List.not_mem_nil⟩
    obtain ⟨text, -, rfl⟩ := List.mem_map.1 hq
    exact proper_ofString text
  unfold TypeLens.moduleFile at h
  dsimp only at h
  generalize ((Text.splitString '.' module).map Path.ofString).foldl Path.join .here = q at hall h
  cases hs : q.addSuffix ".hs" with
  | none =>
    rw [hs] at h
    cases h
  | some r =>
    rw [hs] at h
    cases h
    obtain ⟨name, hname, rfl⟩ := Option.map_eq_some_iff.1 hs
    refine ⟨hall.slashes, List.forall_mem_append.2 ⟨fun part hpart => ?_, ?_⟩⟩
    · exact hall.parts part (List.dropLast_subset _ hpart)
    · obtain ⟨hcomponent, hslash⟩ := hall.parts name (List.mem_of_getLast? hname)
      refine List.forall_mem_singleton.2 ⟨?_, ?_⟩
      · have hlong : ∀ text : String, text.toList.length < 3 → name ++ ".hs" ≠ text := by
          intro text htext heq
          have hlength := congrArg (List.length ∘ String.toList) heq
          simp only [Function.comp_apply, String.toList_append, List.length_append] at hlength
          have hsuffix : ".hs".toList.length = 3 := by decide
          omega
        have hempty : name ++ ".hs" ≠ "" := hlong "" (by decide)
        have hdot : name ++ ".hs" ≠ "." := hlong "." (by decide)
        simp [isComponent, hempty, hdot]
      · rw [String.toList_append, List.mem_append, not_or]
        exact ⟨hslash, by decide⟩

variable {fs : Files} {c : Config} (hpaths : ∀ p, some p ∈ c.importPaths → p.Proper)
include hpaths

theorem findModule {module : String} {near : Option Path} (hnear : ∀ p ∈ near, p.Proper) {q : Path}
    (h : TypeLens.findModule fs c module near = .ok (some q)) : q.Proper := by
  obtain ⟨p, dir, hp, hdir, rfl⟩ := Session.findModule_eq_some h
  refine Proper.join ?_ (moduleFile hp)
  unfold searchDirs at hdir
  dsimp only at hdir
  split at hdir
  · obtain rfl := Option.some.inj (List.mem_singleton.1 hdir)
    exact ⟨Nat.zero_le _, fun _ h => absurd h List.not_mem_nil⟩
  · rcases List.mem_append.1 hdir with hdir | hdir
    · obtain ⟨d, hd, heq⟩ := Option.map_eq_some_iff.1 (Option.mem_toList.1 hdir)
      cases heq
      exact (hnear d hd).parent
    · exact hpaths dir hdir

end Path.Proper

namespace Files.Alike

variable {fs : Files} {c : Config} {p q : Path}

/-- The search from files in one place finds files in one place. -/
theorem findModule (h : fs.Alike p q) {module : String} {p' q' : Path}
    (hp : TypeLens.findModule fs c module (some p) = .ok (some p'))
    (hq : TypeLens.findModule fs c module (some q) = .ok (some q')) : p'.resolve = q'.resolve := by
  unfold TypeLens.findModule at hp hq
  obtain ⟨file, hfile, hp⟩ := exists_of_bind_eq_ok hp
  rw [hfile] at hq
  have hdirs (near : Path) : searchDirs c (some near) = some near.parent :: c.importPaths := rfl
  rw [hdirs, findIn] at hp
  replace hq : findIn fs file (searchDirs c (some q)) = .ok (some q') := hq
  rw [hdirs, findIn] at hq
  obtain ⟨b, hb, hp⟩ := exists_of_bind_eq_ok hp
  obtain ⟨b', hb', hq⟩ := exists_of_bind_eq_ok hq
  obtain ⟨rfl, hsame⟩ := h.near hb hb'
  cases b with
  | true =>
    cases hp
    cases hq
    exact hsame
  | false =>
    have heq := hp.symm.trans hq
    rw [Option.some.inj (Except.ok.inj heq)]

/-- The two files hold the same text, and so a module of the same name with the same imports. -/
theorem outline (h : fs.Alike p q) (hp : p.Proper) (hq : q.Proper) {w : Option Int}
    {m n : Surface.Module} (hm : Surface.parseFile fs w p.render = .ok m)
    (hn : Surface.parseFile fs w q.render = .ok n) :
    m.name = n.name ∧ m.imports.map (·.module) = n.imports.map (·.module) := by
  obtain ⟨source, hs, hm⟩ := exists_of_bind_eq_ok hm
  obtain ⟨source', hs', hn⟩ := exists_of_bind_eq_ok hn
  have hread : fs.read p = fs.read q := by
    rw [Files.read, Files.read, h.find_eq]
  have hsource : source = source' := by
    unfold Surface.readSource at hs hs'
    rw [Path.ofString_render hp, hread] at hs
    rw [Path.ofString_render hq] at hs'
    cases hr : fs.read q with
    | error e =>
      rw [hr] at hs
      cases e <;> cases hs
    | ok bytes =>
      rw [hr] at hs hs'
      dsimp only at hs hs'
      cases hd : Text.Utf8.decode bytes with
      | error e =>
        rw [hd] at hs
        cases hs
      | ok cs =>
        rw [hd] at hs hs'
        cases hs
        cases hs'
        rfl
  subst hsource
  cases w with
  | none => cases hm
  | some w =>
    obtain ⟨c, hc, hname, himports⟩ := Surface.outline_parseModule hm
    obtain ⟨c', hc', hname', himports'⟩ := Surface.outline_parseModule hn
    obtain rfl := Except.ok.inj (hc.symm.trans hc')
    exact ⟨hname.trans hname'.symm, himports.trans himports'.symm⟩

end Files.Alike

end TypeLens

namespace TypeLens.ModuleGraph

variable {fs : Files} {c : Config} {s s' t t' u : Scan} {r : Request}
  {rs rs' ts new new' : List Request} {targets : List Target}

/-- The request has led to a module that is there, and that is in the file it is for. -/
structure Scan.Settles (fs : Files) (c : Config) (s : Scan) (r : Request) (m : Surface.Module) :
    Prop where
  file : fs.isFile r.path = .ok true
  yields : r.Yields fs c m
  there : ∃ f, s.modules.get? m.name = some f ∧
    ∀ p ∈ f.summary.file, p.resolve = r.path.resolve

/-- The module is read from a file that is there. -/
structure Found.Stands (fs : Files) (c : Config) (f : Found) (p : Path) : Prop where
  file : f.summary.file = some p
  proper : p.Proper
  isFile : fs.isFile p = .ok true
  source : Surface.parseFile fs c.tabWidth p.render = .ok f.source
  name : f.name = f.source.name
  imports : f.summary.imports = (f.source.imports.map (·.module)).filter (· != preludeModule)

/-- All modules stand under their names, each in a file that is there. -/
def Scan.Filed (fs : Files) (c : Config) (s : Scan) : Prop :=
  ∀ n f, s.modules.get? n = some f → f.name = n ∧ ∃ p, f.Stands fs c p

/-- What a round comes to: no module goes, each request is settled, new modules are those that
requests are for, and their imports are asked for. -/
structure Round (fs : Files) (c : Config) (s : Scan) (rs : List Request) (s' : Scan)
    (new : List Request) : Prop where
  problems : s.problems <+: s'.problems
  keeps : ∀ n f, s.modules.get? n = some f → s'.modules.get? n = some f
  settles : s'.problems = [] → ∀ r ∈ rs, ∃ m, s'.Settles fs c r m
  added : ∀ n f, s.modules.get? n = none → s'.modules.get? n = some f →
    ∃ r ∈ rs, ∃ m, fs.isFile r.path = .ok true ∧ r.Yields fs c m ∧ n = m.name ∧ f = r.found m
  sound : ∀ q ∈ new, ∃ n f p, s.modules.get? n = none ∧ s'.modules.get? n = some f ∧
    f.summary.file = some p ∧ ∃ i ∈ f.source.imports, Sought fs c p i q
  complete : s'.problems = [] → ∀ n f, s.modules.get? n = none → s'.modules.get? n = some f →
    ∃ p, f.summary.file = some p ∧ ∀ i ∈ f.source.imports,
      (i.module = preludeModule ∨ (s'.modules.get? i.module).isSome) ∨
        ∃ q ∈ new, Sought fs c p i q

namespace Round

theorem nil : Round fs c s [] s [] where
  problems := List.prefix_rfl
  keeps _ _ h := h
  settles _ _ h := absurd h List.not_mem_nil
  added _ _ h h' := by
    rw [h] at h'
    cases h'
  sound _ h := absurd h List.not_mem_nil
  complete _ _ _ h h' := by
    rw [h] at h'
    cases h'

theorem trans (h : Round fs c s rs t new) (h' : Round fs c t rs' u new') :
    Round fs c s (rs ++ rs') u (new ++ new') := by
  have hnone (hu : u.problems = []) : t.problems = [] := List.prefix_nil.1 (hu ▸ h'.problems)
  have hnew {n : String} (ht : t.modules.get? n = none) : s.modules.get? n = none := by
    cases hs : s.modules.get? n with
    | none => rfl
    | some f =>
      rw [h.keeps n f hs] at ht
      cases ht
  -- A module that is new after both is new after the first or stays as it is after it.
  have hsplit {n : String} {f : Found} (hu : u.modules.get? n = some f) :
      t.modules.get? n = none ∨ t.modules.get? n = some f := by
    cases ht : t.modules.get? n with
    | none => exact .inl rfl
    | some g => exact .inr ((h'.keeps n g ht).symm.trans hu)
  refine ⟨h.problems.trans h'.problems, fun n f hs => h'.keeps n f (h.keeps n f hs), ?_, ?_, ?_, ?_⟩
  · refine fun hu => List.forall_mem_append.2 ⟨fun r hr => ?_, h'.settles hu⟩
    obtain ⟨m, hfile, hm, f, hf, hp⟩ := h.settles (hnone hu) r hr
    exact ⟨m, hfile, hm, f, h'.keeps _ _ hf, hp⟩
  · intro n f hs hu
    rcases hsplit hu with ht | ht
    · obtain ⟨r, hr, hm⟩ := h'.added n f ht hu
      exact ⟨r, List.mem_append_right _ hr, hm⟩
    · obtain ⟨r, hr, hm⟩ := h.added n f hs ht
      exact ⟨r, List.mem_append_left _ hr, hm⟩
  · refine List.forall_mem_append.2 ⟨fun q hq => ?_, fun q hq => ?_⟩
    · obtain ⟨n, f, p, hs, ht, hp⟩ := h.sound q hq
      exact ⟨n, f, p, hs, h'.keeps n f ht, hp⟩
    · obtain ⟨n, f, p, ht, hp⟩ := h'.sound q hq
      exact ⟨n, f, p, hnew ht, hp⟩
  · intro hu n f hs hn
    rcases hsplit hn with ht | ht
    · obtain ⟨p, hp, himports⟩ := h'.complete hu n f ht hn
      refine ⟨p, hp, fun i hi => (himports i hi).imp_right ?_⟩
      rintro ⟨q, hq, hsought⟩
      exact ⟨q, List.mem_append_right _ hq, hsought⟩
    · obtain ⟨p, hp, himports⟩ := h.complete (hnone hu) n f hs ht
      refine ⟨p, hp, fun i hi => ?_⟩
      rcases himports i hi with (hi | hi) | ⟨q, hq, hsought⟩
      · exact .inl (.inl hi)
      · obtain ⟨g, hg⟩ := Option.isSome_iff_exists.1 hi
        exact .inl (.inr (Option.isSome_iff_exists.2 ⟨g, h'.keeps _ g hg⟩))
      · exact .inr ⟨q, List.mem_append_left _ hq, hsought⟩

end Round

theorem prefix_add (s : Scan) (d : Diagnostic) : s.problems <+: (s.add d).problems :=
  List.prefix_append _ _

theorem isSome_get?_of_mem_keys {n : String} (h : n ∈ s.modules.keys) :
    (s.modules.get? n).isSome := Table.mem_keys_iff.1 h

/-- A new module is filed, and its imports are asked for. -/
theorem round_found {m : Surface.Module} (hfile : fs.isFile r.path = .ok true)
    (hm : r.Yields fs c m) (hnone : s.modules.get? m.name = none)
    (h : requestImports fs c r.path { s with modules := s.modules.put m.name (r.found m) }
      m.imports = .ok (s', new)) : Round fs c s [r] s' new := by
  have hasked := asked_requestImports h
  have hmodules : s'.modules = s.modules.put m.name (r.found m) := hasked.modules
  have hself : s'.modules.get? m.name = some (r.found m) := by
    rw [hmodules, Table.get?_put_self]
  have hadded {n : String} {f : Found} (hs : s.modules.get? n = none)
      (hn : s'.modules.get? n = some f) : n = m.name ∧ f = r.found m := by
    rw [hmodules] at hn
    rcases Table.eq_or_of_get?_put hn with ⟨hname, hfound⟩ | ⟨-, hold⟩
    · exact ⟨hname.symm, hfound.symm⟩
    · rw [hs] at hold
      cases hold
  refine ⟨hasked.problems, fun n f hn => ?_, fun _ => ?_, fun n f hs hn => ?_, fun q hq => ?_,
    fun hno n f hs hn => ?_⟩
  · have hne : m.name ≠ n := by
      rintro rfl
      rw [hnone] at hn
      cases hn
    rw [hmodules, Table.get?_put_of_ne hne]
    exact hn
  · refine List.forall_mem_singleton.2 ⟨m, hfile, hm, r.found m, hself, fun p hp => ?_⟩
    rw [← Option.some.inj hp]
  · obtain ⟨hname, hfound⟩ := hadded hs hn
    exact ⟨r, List.mem_singleton_self r, m, hfile, hm, hname, hfound⟩
  · obtain ⟨i, hi, hsought⟩ := hasked.sound q hq
    exact ⟨m.name, r.found m, r.path, hnone, hself, rfl, i, hi, hsought⟩
  · obtain ⟨rfl, rfl⟩ := hadded hs hn
    refine ⟨r.path, rfl, fun i hi => ?_⟩
    refine (hasked.complete hno i hi).imp_left fun hsettled => hsettled.imp_right fun hkey => ?_
    rw [← hasked.modules] at hkey
    exact isSome_get?_of_mem_keys hkey

theorem round_serve (h : serve fs c s r = .ok (s', new)) : Round fs c s [r] s' new := by
  have hno {n : String} {f : Found} (hn : s.modules.get? n = none)
      (hn' : s.modules.get? n = some f) : False := by
    rw [hn] at hn'
    cases hn'
  rcases serve_eq_ok h with
    ⟨d, rfl, rfl⟩ | ⟨m, hfile, hm, ⟨rfl, rfl, f, hf, hsame⟩ | ⟨hnone, hrequest⟩⟩
  · exact ⟨prefix_add s d, fun _ _ h => h, fun hnil => absurd hnil (ne_nil_of_add d),
      fun _ _ h h' => (hno h h').elim, fun _ h => absurd h List.not_mem_nil,
      fun _ _ _ h h' => (hno h h').elim⟩
  · refine ⟨List.prefix_rfl, fun _ _ h => h, fun _ => List.forall_mem_singleton.2 ?_,
      fun _ _ h h' => (hno h h').elim, fun _ h => absurd h List.not_mem_nil,
      fun _ _ _ h h' => (hno h h').elim⟩
    exact ⟨m, hfile, hm, f, hf, hsame⟩
  · exact round_found hfile hm hnone hrequest

theorem round_serveAll (h : serveAll fs c s rs = .ok (s', new)) : Round fs c s rs s' new := by
  induction rs generalizing s new with
  | nil =>
    cases h
    exact .nil
  | cons r rs ih =>
    obtain ⟨⟨s₁, new₁⟩, hserve, h⟩ := exists_of_bind_eq_ok h
    obtain ⟨⟨s₂, new₂⟩, hrest, h⟩ := exists_of_bind_eq_ok h
    cases h
    exact (round_serve hserve).trans (ih hrest)

theorem Round.filed (h : Round fs c s rs s' new) (hs : s.Filed fs c)
    (hrs : ∀ r ∈ rs, r.path.Proper) : s'.Filed fs c := by
  intro n f hf
  cases hn : s.modules.get? n with
  | some g =>
    obtain rfl : g = f := Option.some.inj ((h.keeps n g hn).symm.trans hf)
    exact hs n g hn
  | none =>
    obtain ⟨r, hr, m, hfile, hm, rfl, rfl⟩ := h.added n f hn hf
    exact ⟨rfl, r.path, rfl, hrs r hr, hfile, hm.1, rfl, rfl⟩

section

variable (hpaths : ∀ p, some p ∈ c.importPaths → p.Proper)
include hpaths

theorem Round.proper (h : Round fs c s rs s' new) (hs' : s'.Filed fs c) :
    ∀ q ∈ new, q.path.Proper := by
  intro q hq
  obtain ⟨n, f, p, -, hf, hp, i, -, hsought⟩ := h.sound q hq
  obtain ⟨-, p', hstands⟩ := hs' n f hf
  obtain rfl : p' = p := Option.some.inj (hstands.file.symm.trans hp)
  refine Path.Proper.findModule hpaths (fun d hd => ?_) hsought.found
  exact Option.some.inj hd ▸ hstands.proper

end

-- Two searches

/-- The request asks for the module of that name. -/
def Request.AsksFor (fs : Files) (c : Config) (r : Request) (n : String) : Prop :=
  r.expected = some n ∨
    r.expected = none ∧ ∃ m, Surface.parseFile fs c.tabWidth r.path.render = .ok m ∧ m.name = n

theorem Request.AsksFor.eq_name {n : String} (h : r.AsksFor fs c n) {m : Surface.Module}
    (hm : r.Yields fs c m) : n = m.name := by
  rcases h with h | ⟨-, m', hm', rfl⟩
  · exact hm.2 n h
  · rw [Except.ok.inj (hm'.symm.trans hm.1)]

theorem Request.Yields.asksFor {m : Surface.Module} (hm : r.Yields fs c m) :
    r.AsksFor fs c m.name := by
  cases he : r.expected with
  | none => exact .inr ⟨he, m, hm.1, rfl⟩
  | some n => exact .inl (hm.2 n he ▸ he)

/-- What the first search has found and asks for the second has found and asks for, too. -/
structure Within (fs : Files) (c : Config) (s : Scan) (rs : List Request) (t : Scan)
    (ts : List Request) : Prop where
  modules : ∀ n f p, s.modules.get? n = some f → f.summary.file = some p →
    ∃ g q, t.modules.get? n = some g ∧ g.summary.file = some q ∧ p.resolve = q.resolve
  requests : ∀ r ∈ rs, ∀ n, s.modules.get? n = none → r.AsksFor fs c n →
    ∃ q ∈ ts, q.AsksFor fs c n ∧ r.path.resolve = q.path.resolve

/-- Both searches have found the same modules in the same places, and ask for the same. -/
structure Level (fs : Files) (c : Config) (s : Scan) (rs : List Request) (t : Scan)
    (ts : List Request) : Prop where
  left : Within fs c s rs t ts
  right : Within fs c t ts s rs

theorem Within.get?_eq_none (h : Within fs c t ts s rs) (ht : t.Filed fs c) {n : String}
    (hn : s.modules.get? n = none) : t.modules.get? n = none := by
  cases hg : t.modules.get? n with
  | none => rfl
  | some g =>
    obtain ⟨-, q, hq⟩ := ht n g hg
    obtain ⟨f, p, hf, -⟩ := h.modules n g q hg hq.file
    rw [hn] at hf
    cases hf

/-- After a round on both sides the second search has still found all that the first has. -/
theorem Within.modules_round (h : Within fs c s rs t ts) (hround : Round fs c s rs s' new)
    (hround' : Round fs c t ts t' new') (ht' : t'.Filed fs c) (hno' : t'.problems = []) :
    ∀ n f p, s'.modules.get? n = some f → f.summary.file = some p →
      ∃ g q, t'.modules.get? n = some g ∧ g.summary.file = some q ∧ p.resolve = q.resolve := by
  intro n f p hf hp
  cases hn : s.modules.get? n with
  | some f' =>
    obtain rfl : f' = f := Option.some.inj ((hround.keeps n f' hn).symm.trans hf)
    obtain ⟨g, q, hg, hq⟩ := h.modules n f' p hn hp
    exact ⟨g, q, hround'.keeps n g hg, hq⟩
  | none =>
    obtain ⟨r, hr, m, -, hm, rfl, rfl⟩ := hround.added n f hn hf
    obtain ⟨q, hq, hasks, hsame⟩ := h.requests r hr m.name hn hm.asksFor
    obtain ⟨m', -, hm', g, hg, hplace⟩ := hround'.settles hno' q hq
    rw [← hasks.eq_name hm'] at hg
    obtain ⟨-, p', hstands⟩ := ht' _ g hg
    obtain rfl : r.path = p := Option.some.inj hp
    exact ⟨g, p', hg, hstands.file, hsame.trans (hplace p' hstands.file).symm⟩

/-- A round on both sides leads from one level to the next. -/
theorem Level.within (h : Level fs c s rs t ts) (ht : t.Filed fs c)
    (hround : Round fs c s rs s' new) (hround' : Round fs c t ts t' new') (hs' : s'.Filed fs c)
    (ht' : t'.Filed fs c) (hno : s'.problems = []) (hno' : t'.problems = []) :
    Within fs c s' new t' new' := by
  have hmodules := h.left.modules_round hround hround' ht' hno'
  have hback := h.right.modules_round hround' hround hs' hno
  refine ⟨hmodules, fun r hr n hn hasks => ?_⟩
  obtain ⟨k, f, p, hk, hf, hp, i, hi, hsought⟩ := hround.sound r hr
  obtain rfl : i.module = n := by
    rcases hasks with hasks | ⟨hasks, -⟩
    · exact Option.some.inj (hsought.expected.symm.trans hasks)
    · rw [hsought.expected] at hasks
      cases hasks
  obtain ⟨g, q, hg, hq, hsame⟩ := hmodules k f p hf hp
  -- The importing module is new on the other side, too, and stands in the same place.
  have hk' : t.modules.get? k = none := h.right.get?_eq_none ht hk
  obtain ⟨-, p', hstands⟩ := hs' k f hf
  obtain rfl : p' = p := Option.some.inj (hstands.file.symm.trans hp)
  obtain ⟨-, q', hstands'⟩ := ht' k g hg
  obtain rfl : q' = q := Option.some.inj (hstands'.file.symm.trans hq)
  have halike : fs.Alike p' q' := ⟨hstands.isFile, hstands'.isFile, hsame⟩
  obtain ⟨-, himports⟩ := halike.outline hstands.proper hstands'.proper hstands.source
    hstands'.source
  have hmem : i.module ∈ g.source.imports.map (·.module) :=
    himports ▸ List.mem_map_of_mem hi
  obtain ⟨j, hj, hji⟩ := List.mem_map.1 hmem
  obtain ⟨q'', hfile, hcomplete⟩ := hround'.complete hno' k g hk' hg
  obtain rfl : q' = q'' := Option.some.inj (hstands'.file.symm.trans hfile)
  rcases hcomplete j hj with (hown | hthere) | ⟨r', hr', hsought'⟩
  · exact absurd (hji.symm.trans hown) hsought.own
  · obtain ⟨g', hg'⟩ := Option.isSome_iff_exists.1 hthere
    obtain ⟨-, p'', hstands''⟩ := ht' _ g' hg'
    obtain ⟨f', -, hf', -⟩ := hback _ g' p'' hg' hstands''.file
    rw [hji, hn] at hf'
    cases hf'
  · refine ⟨r', hr', .inl (hji ▸ hsought'.expected), ?_⟩
    exact halike.findModule hsought.found (hji ▸ hsought'.found)

theorem Level.next (h : Level fs c s rs t ts) (hs : s.Filed fs c) (ht : t.Filed fs c)
    (hround : Round fs c s rs s' new) (hround' : Round fs c t ts t' new') (hs' : s'.Filed fs c)
    (ht' : t'.Filed fs c) (hno : s'.problems = []) (hno' : t'.problems = []) :
    Level fs c s' new t' new' where
  left := h.within ht hround hround' hs' ht' hno hno'
  right := Level.within ⟨h.right, h.left⟩ hs hround' hround ht' hs' hno' hno

theorem rounds_nil (n : Nat) (s : Scan) : rounds fs c n s [] = .ok s := by
  cases n <;> rfl

theorem rounds_succ (n : Nat) (s : Scan) (rs : List Request) :
    rounds fs c (n + 1) s rs = (do
      let (s', new) ← serveAll fs c s rs
      rounds fs c n s' new) := by
  cases rs with
  | nil => exact (rounds_nil n s).symm
  | cons r rs => rfl

theorem problems_rounds {n : Nat} (h : rounds fs c n s rs = .ok s') :
    s.problems <+: s'.problems := by
  induction n generalizing s rs with
  | zero =>
    cases h
    exact List.prefix_rfl
  | succ n ih =>
    rw [rounds_succ] at h
    obtain ⟨⟨s₁, new⟩, hround, h⟩ := exists_of_bind_eq_ok h
    exact (round_serveAll hround).problems.trans (ih h)

theorem keeps_rounds {n : Nat} (h : rounds fs c n s rs = .ok s') {name : String} {f : Found}
    (hf : s.modules.get? name = some f) : s'.modules.get? name = some f := by
  induction n generalizing s rs with
  | zero =>
    cases h
    exact hf
  | succ n ih =>
    rw [rounds_succ] at h
    obtain ⟨⟨s₁, new⟩, hround, h⟩ := exists_of_bind_eq_ok h
    exact ih h ((round_serveAll hround).keeps name f hf)

section

variable (hpaths : ∀ p, some p ∈ c.importPaths → p.Proper)
include hpaths

theorem filed_rounds {n : Nat} (h : rounds fs c n s rs = .ok s') (hs : s.Filed fs c)
    (hrs : ∀ r ∈ rs, r.path.Proper) : s'.Filed fs c := by
  induction n generalizing s rs with
  | zero =>
    cases h
    exact hs
  | succ n ih =>
    rw [rounds_succ] at h
    obtain ⟨⟨s₁, new⟩, hround, h⟩ := exists_of_bind_eq_ok h
    have hround := round_serveAll hround
    have hs₁ := hround.filed hs hrs
    exact ih h hs₁ (hround.proper hpaths hs₁)

/-- Two searches on one level that end without a problem have found the same modules. -/
theorem level_rounds {n : Nat} (hs : rounds fs c n s rs = .ok s') (ht : rounds fs c n t ts = .ok t')
    (hno : s'.problems = []) (hno' : t'.problems = []) (h : Level fs c s rs t ts)
    (hfs : s.Filed fs c) (hft : t.Filed fs c) (hrs : ∀ r ∈ rs, r.path.Proper)
    (hts : ∀ r ∈ ts, r.path.Proper) : ∃ rs' ts', Level fs c s' rs' t' ts' := by
  induction n generalizing s rs t ts with
  | zero =>
    cases hs
    cases ht
    exact ⟨rs, ts, h⟩
  | succ n ih =>
    rw [rounds_succ] at hs ht
    obtain ⟨⟨s₁, new⟩, hround, hs⟩ := exists_of_bind_eq_ok hs
    obtain ⟨⟨t₁, new'⟩, hround', ht⟩ := exists_of_bind_eq_ok ht
    have hround := round_serveAll hround
    have hround' := round_serveAll hround'
    have hs₁ := hround.filed hfs hrs
    have ht₁ := hround'.filed hft hts
    have hno₁ : s₁.problems = [] := List.prefix_nil.1 (hno ▸ problems_rounds hs)
    have hno₁' : t₁.problems = [] := List.prefix_nil.1 (hno' ▸ problems_rounds ht)
    exact ih hs ht (h.next hfs hft hround hround' hs₁ ht₁ hno₁ hno₁') hs₁ ht₁
      (hround.proper hpaths hs₁) (hround'.proper hpaths ht₁)

end

-- Targets

/-- The name that the file of a target has to hold. -/
def expectedName : Target → Option String
  | .module m => some m
  | _ => none

/-- The request is for the file of the target. -/
def Wants (fs : Files) (c : Config) (t : Target) (r : Request) : Prop :=
  targetFile fs c t = .ok (some r.path) ∧ r.expected = expectedName t

theorem wants_requestTargets (h : requestTargets fs c s targets = .ok (s', new)) :
    Asked (Wants fs c) (fun _ => False) targets s s' new := by
  induction targets generalizing s new with
  | nil =>
    cases h
    exact .nil
  | cons t ts ih =>
    obtain ⟨⟨s₁, new₁⟩, hreq, h⟩ := exists_of_bind_eq_ok h
    obtain ⟨⟨s₂, new₂⟩, hrest, h⟩ := exists_of_bind_eq_ok h
    cases h
    refine .cons ?_ (ih hrest)
    cases t with
    | file p =>
      cases hreq
      exact .inr ⟨rfl, ⟨p, none, .unknown⟩, ⟨rfl, rfl⟩, rfl⟩
    | module name =>
      refine (requestModule_eq_ok hreq).imp_right ?_
      rintro ⟨hs, p, hp, hnew⟩
      exact ⟨hs, ⟨p, some name, .unknown⟩, ⟨hp, rfl⟩, hnew⟩
    | nothing =>
      refine (requestModule_eq_ok hreq).imp_right ?_
      rintro ⟨hs, p, hp, hnew⟩
      exact ⟨hs, ⟨p, none, .unknown⟩, ⟨hp, rfl⟩, hnew⟩

/-- Unless there is a problem, each target is found, and so is the module in its file. -/
theorem settled_scan (h : scan fs c targets = .ok s) (hno : s.problems = []) :
    ∀ t ∈ targets, ∃ r m, Wants fs c t r ∧ s.Settles fs c r m := by
  obtain ⟨⟨s₀, rs⟩, hrequest, h⟩ := exists_of_bind_eq_ok h
  replace h : rounds fs c (fs.length + 1) s₀ rs = .ok s := h
  rw [rounds_succ] at h
  obtain ⟨⟨s₁, new⟩, hround, h⟩ := exists_of_bind_eq_ok h
  have hround := round_serveAll hround
  have hno₁ : s₁.problems = [] := List.prefix_nil.1 (hno ▸ problems_rounds h)
  have hno₀ : s₀.problems = [] := List.prefix_nil.1 (hno₁ ▸ hround.problems)
  intro t ht
  obtain ⟨r, hr, hwants⟩ :=
    ((wants_requestTargets hrequest).complete hno₀ t ht).resolve_left id
  obtain ⟨m, hfile, hm, f, hf, hplace⟩ := hround.settles hno₁ r hr
  exact ⟨r, m, hwants, hfile, hm, f, keeps_rounds h hf, hplace⟩

section

variable (hpaths : ∀ p, some p ∈ c.importPaths → p.Proper)
include hpaths

theorem proper_of_wants (htargets : ∀ p, .file p ∈ targets → p.Proper) {t : Target}
    (ht : t ∈ targets) (h : Wants fs c t r) : r.path.Proper := by
  have hfound {module : String} (h : findModule fs c module none = .ok (some r.path)) :
      r.path.Proper := Path.Proper.findModule hpaths (fun _ hd => by cases hd) h
  obtain ⟨hfile, -⟩ := h
  cases t with
  | file p =>
    cases hfile
    exact htargets _ ht
  | module name => exact hfound hfile
  | nothing => exact hfound hfile

theorem filed_scan (htargets : ∀ p, .file p ∈ targets → p.Proper)
    (h : scan fs c targets = .ok s) : s.Filed fs c := by
  obtain ⟨⟨s₀, rs⟩, hrequest, h⟩ := exists_of_bind_eq_ok h
  have hasked := wants_requestTargets hrequest
  refine filed_rounds hpaths h (fun n f hf => ?_) fun r hr => ?_
  · rw [show s₀.modules = [] from hasked.modules] at hf
    cases hf
  · obtain ⟨t, ht, hwants⟩ := hasked.sound r hr
    exact proper_of_wants hpaths htargets ht hwants

/-- Two searches for the same targets that end without a problem have found the same modules in the
same places. -/
theorem level_scan {targets' : List Target} (hperm : targets.Perm targets')
    (htargets : ∀ p, .file p ∈ targets → p.Proper) (hs : scan fs c targets = .ok s)
    (ht : scan fs c targets' = .ok t) (hno : s.problems = []) (hno' : t.problems = []) :
    ∃ rs ts, Level fs c s rs t ts := by
  obtain ⟨⟨s₀, rs⟩, hrequest, hs⟩ := exists_of_bind_eq_ok hs
  obtain ⟨⟨t₀, ts⟩, hrequest', ht⟩ := exists_of_bind_eq_ok ht
  have hasked := wants_requestTargets hrequest
  have hasked' := wants_requestTargets hrequest'
  have hnone {u : Scan} (hu : u.modules = []) : u.Filed fs c := by
    intro n f hf
    rw [hu] at hf
    cases hf
  -- Both searches begin with requests for the files of the targets.
  have hwithin {us us' : List Target} {u u' : Scan} {qs qs' : List Request}
      (hsub : us ⊆ us') (h : Asked (Wants fs c) (fun _ => False) us {} u qs)
      (h' : Asked (Wants fs c) (fun _ => False) us' {} u' qs') (hno' : u'.problems = []) :
      Within fs c u qs u' qs' := by
    refine ⟨fun n f p hf => ?_, fun r hr n _ hasks => ?_⟩
    · rw [show u.modules = [] from h.modules] at hf
      cases hf
    · obtain ⟨target, htarget, hfile, hexpected⟩ := h.sound r hr
      obtain ⟨q, hq, hfile', hexpected'⟩ :=
        (h'.complete hno' target (hsub htarget)).resolve_left id
      have hpath : r.path = q.path := Option.some.inj (Except.ok.inj (hfile.symm.trans hfile'))
      refine ⟨q, hq, ?_, congrArg Path.resolve hpath⟩
      unfold Request.AsksFor at hasks ⊢
      rw [hexpected', ← hexpected, ← hpath]
      exact hasks
  have hno₀ : s₀.problems = [] := List.prefix_nil.1 (hno ▸ problems_rounds hs)
  have hno₀' : t₀.problems = [] := List.prefix_nil.1 (hno' ▸ problems_rounds ht)
  refine level_rounds hpaths hs ht hno hno'
    ⟨hwithin hperm.subset hasked hasked' hno₀', hwithin hperm.symm.subset hasked' hasked hno₀⟩
    (hnone hasked.modules) (hnone hasked'.modules) (fun r hr => ?_) fun r hr => ?_
  · obtain ⟨target, htarget, hwants⟩ := hasked.sound r hr
    exact proper_of_wants hpaths htargets htarget hwants
  · obtain ⟨target, htarget, hwants⟩ := hasked'.sound r hr
    exact proper_of_wants hpaths htargets (hperm.symm.subset htarget) hwants

end

end TypeLens.ModuleGraph
