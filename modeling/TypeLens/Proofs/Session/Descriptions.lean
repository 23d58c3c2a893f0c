import TypeLens.Proofs.Session.Bundled
import TypeLens.Proofs.Session.Consistency

/-!
Names that are found and what is said of them. A name is found in the scope of the context and
looked up in its own module, and both know the same of it, unless the context is a loaded module with
the name of the bundled one: then it is the bundled module that names are looked up in.
-/

namespace TypeLens

namespace Session

open ModuleGraph (Found)

variable {c : Config} {s t : Session} {loaded : List Loaded} {n : Name}

-- What modules that are loaded know

/-- The module that a name belongs to is there and knows what it denotes. -/
def Provided (c : Config) (loaded : List Loaded) (n : Name) : Prop :=
  if n.module = preludeModule then
    ∃ k, Prelude.read c.tabWidth = .ok k ∧ (k.globals.entity? n).isSome
  else ∃ k, lookup? loaded n.module = some k ∧ (k.globals.entity? n).isSome

/-- What a loaded module has in scope is known to it, and is its own or its owner knows it, too. -/
structure Knows (c : Config) (loaded : List Loaded) (module : String) (k : Checked) : Prop where
  scope : ∀ space occ, ∀ x ∈ k.globals.scope.lookup space occ,
    (k.globals.entity? x.name).isSome ∧ (x.name.module = module ∨ Provided c loaded x.name)
  entities : ∀ p ∈ k.globals.entities, p.1 = p.2.name ∧ p.2.Rooted
  exports : k.exports.Rooted
  own : ∀ p ∈ k.exports.entities, p.1.module = module ∧ (k.globals.entity? p.1).isSome

theorem lookup?_append {m : String} {k : Checked} (h : lookup? loaded m = some k)
    (more : List Loaded) : lookup? (loaded ++ more) m = some k := by
  obtain ⟨l, hl, rfl⟩ := Option.map_eq_some_iff.1 h
  rw [lookup?, List.find?_append, hl]
  rfl

theorem mem_of_lookup? {m : String} {k : Checked} (h : lookup? loaded m = some k) :
    ∃ l ∈ loaded, l.summary.module = m ∧ l.checked = k := by
  obtain ⟨l, hl, rfl⟩ := Option.map_eq_some_iff.1 h
  exact ⟨l, List.mem_of_find?_eq_some hl, by simpa using List.find?_some hl, rfl⟩

theorem Provided.append (h : Provided c loaded n) (more : List Loaded) :
    Provided c (loaded ++ more) n := by
  unfold Provided at h ⊢
  split at h
  · next hn => rwa [if_pos hn]
  · next hn =>
    obtain ⟨k, hk, hknown⟩ := h
    rw [if_neg hn]
    exact ⟨k, lookup?_append hk more, hknown⟩

theorem Knows.append {m : String} {k : Checked} (h : Knows c loaded m k) (more : List Loaded) :
    Knows c (loaded ++ more) m k :=
  { h with
    scope := fun space occ x hx => by
      obtain ⟨hknown, hsource⟩ := h.scope space occ x hx
      exact ⟨hknown, hsource.imp_right (·.append more)⟩ }

/-- What a module exports is provided by the module. -/
theorem provided_of_exported (h : ∀ l ∈ loaded, Knows c loaded l.summary.module l.checked)
    {m : String} {x : Exports} (hx : Exported c loaded m x) :
    x.Rooted ∧ ∀ p ∈ x.entities, Provided c loaded p.1 := by
  unfold Exported at hx
  split at hx
  · obtain ⟨k, hk, rfl⟩ := hx
    have hsourced : k.Sourced preludeModule [] := by
      rw [Prelude.checked_of_read hk]
      exact Prelude.sourced_checked
    refine ⟨hsourced.exports, fun p hp => ?_⟩
    obtain ⟨hmodule, hknown⟩ := hsourced.own p hp
    rw [Provided, if_pos hmodule]
    exact ⟨k, hk, hknown⟩
  · next hm =>
    obtain ⟨k, hk, rfl⟩ := hx
    obtain ⟨l, hl, rfl, rfl⟩ := mem_of_lookup? hk
    refine ⟨(h l hl).exports, fun p hp => ?_⟩
    obtain ⟨hmodule, hknown⟩ := (h l hl).own p hp
    rw [Provided, hmodule, if_neg hm]
    exact ⟨l.checked, hk, hknown⟩

theorem exists_of_forall₂ {α β : Type} {R : α → β → Prop} {as : List α} {bs : List β}
    (h : List.Forall₂ R as bs) : ∀ b ∈ bs, ∃ a, R a b := by
  induction h with
  | nil => exact fun _ h => absurd h List.not_mem_nil
  | cons hab _ ih => exact List.forall_mem_cons.2 ⟨⟨_, hab⟩, ih⟩

theorem Loads.knows {found : List Found} (h : Loads c found loaded)
    (hname : ∀ f ∈ found, f.name = f.source.name) :
    ∀ l ∈ loaded, Knows c loaded l.summary.module l.checked := by
  induction h with
  | nil => exact fun _ h => absurd h List.not_mem_nil
  | @snoc found loaded f xs checked _ hxs hchecked ih =>
    obtain ⟨hnames, hf⟩ := List.forall_mem_append.1 hname
    replace hf : f.summary.module = f.source.name := hf f (List.mem_singleton_self f)
    have hloaded := ih hnames
    have hexported : ∀ x ∈ xs, x.Rooted ∧ ∀ p ∈ x.entities, Provided c loaded p.1 := by
      intro x hx
      obtain ⟨m, hm⟩ := exists_of_forall₂ hxs x hx
      exact provided_of_exported hloaded hm
    have hrooted : ∀ x ∈ xs, x.Rooted := fun x hx => (hexported x hx).1
    have hsourced : checked.Sourced f.summary.module xs := by
      rw [hf, Check.eq_of_module_eq_ok hchecked]
      exact Check.sourced_run hrooted
    have hnew : Knows c loaded f.summary.module checked := by
      refine ⟨fun space occ x hx => ⟨Check.known_of_module hrooted hchecked space occ x hx, ?_⟩,
        fun p hp => ⟨hsourced.keyed p hp, hsourced.globals.entities p hp⟩, hsourced.exports,
        hsourced.own⟩
      refine (hsourced.globals.scope space occ x hx).2.imp_right fun ⟨y, hy, hcontains⟩ => ?_
      obtain ⟨e, he⟩ := Option.isSome_iff_exists.1 hcontains
      exact (hexported y hy).2 _ (Table.mem_of_get? he)
    refine List.forall_mem_append.2 ⟨fun l hl => (hloaded l hl).append _, ?_⟩
    exact List.forall_mem_singleton.2 (hnew.append _)

theorem FromGraph.knows (h : FromGraph c loaded) :
    ∀ l ∈ loaded, Knows c loaded l.summary.module l.checked := by
  obtain ⟨fs, targets, found, rest, hbuild, hloads⟩ := h
  refine hloads.knows fun f hf => ?_
  exact (ModuleGraph.isRead_of_build hbuild f (List.mem_append_left _ hf)).name

-- Looking names up

/-- The same session, except that the bundled module may have been read. -/
structure Later (c : Config) (s t : Session) : Prop where
  sound : Sound c t
  scope : SameScope s t

theorem later_refl (hs : Sound c s) : Later c s s := ⟨hs, rfl, rfl⟩

theorem Later.run {α : Type} {Q : Session → Session → Prop} {x : SessionM α} (h : Later c s t)
    (hreads : OnlyReads x) (hx : Agrees c SameScope Q x) : Later c s (x.run t).2 := by
  have hsound : Sound c (x.run t).2 := hx.sound h.sound ⟨rfl, rfl⟩
  obtain ⟨k, hk⟩ := hreads t
  rw [hk] at hsound ⊢
  exact ⟨hsound, h.scope⟩

theorem run_globals {g : Globals} (h : InScope s g) :
    (globals.run s).1 = .ok g := by
  rw [globals, run_get_bind]
  cases h with
  | context hm hk =>
    rw [Option.bind_eq_some_iff.2 ⟨_, hm, hk⟩]
    rfl
  | bundled hnone hk =>
    simp only [hnone]
    rw [run_bind, run_readBundled, hk]
    rfl

theorem run_owner? {g : Globals} (h : Owns s n g) :
    ((owner? n.module).run s).1 = .ok (some g) := by
  cases h with
  | bundled hn hk =>
    rw [owner?, if_pos hn, run_bind, run_readBundled, hk]
    rfl
  | loaded hn hk =>
    rw [owner?, if_neg hn, run_get_bind, hk]
    rfl

/-- A name is described if its module knows it. -/
theorem run_info? (hs : Sound c s) {g context : Globals} {e : Entity} (howns : Owns s n g)
    (he : g.entity? n = some e) (hscope : InScope s context) :
    ∃ i, ((info? n).run s).1 = .ok (some i) ∧ i.entity = e := by
  have howner := run_owner? howns
  have hlater := (later_refl hs).run (onlyReads_owner? n.module) (agrees_owner? n.module)
  rw [info?, run_bind]
  rcases hr : (owner? n.module).run s with ⟨r, u⟩
  rw [hr] at howner hlater
  obtain rfl : r = .ok (some g) := howner
  have hcontext : (globals.run u).1 = .ok context :=
    ((agrees_globals s u hs hlater.sound hlater.scope).1).symm.trans (run_globals hscope)
  simp only [Option.bind_some, he]
  rw [run_bind]
  rcases hg : globals.run u with ⟨r, v⟩
  rw [hg] at hcontext
  obtain rfl : r = .ok context := hcontext
  exact ⟨_, rfl, rfl⟩

/-- What is found under a text is in the scope of the context. -/
theorem scope_of_parseName {text : String} {ds : List Declared}
    (h : ((parseName text).run s).1 = .ok ds) :
    ∃ g, InScope s g ∧ ds ≠ [] ∧ ∀ d ∈ ds, ∃ space occ, d ∈ g.scope.lookup space occ := by
  rw [parseName, run_bind] at h
  cases hq : NameQuery.parse text with
  | error e =>
    rw [hq] at h
    cases h
  | ok q =>
    rw [hq] at h
    replace h : ((globals >>= _ : SessionM (List Declared)).run s).1 = .ok ds := h
    rw [run_bind] at h
    have hscope (g : Globals) (h : (globals.run s).1 = .ok g) := inScope_of_run h
    rcases hg : globals.run s with ⟨r, u⟩
    rw [hg] at h hscope
    cases r with
    | error e => cases h
    | ok g =>
      dsimp only at h
      split at h
      · cases h
      · next hne =>
        obtain rfl : namesOf g q = ds := Except.ok.inj h
        refine ⟨g, hscope g rfl, fun hnil => hne (by rw [hnil]; rfl), fun d hd => ?_⟩
        cases q with
        | con n =>
          rcases List.mem_append.1 hd with hd | hd
          · exact ⟨.type, n, hd⟩
          · exact ⟨.value, n, hd⟩
        | var n => exact ⟨.value, n, hd⟩

-- What is said of a name

/-- Something is said of the name, and of nothing else. -/
def Described (s : Session) (n : Name) : Prop :=
  ∃ i, ((info? n).run s).1 = .ok (some i) ∧ i.entity.name = n

theorem Knows.of_entity? {m : String} {k : Checked} (h : Knows c loaded m k) {e : Entity}
    (he : k.globals.entity? n = some e) : e.name = n ∧ e.Rooted := by
  obtain ⟨hname, hrooted⟩ := h.entities _ (Table.mem_of_get? he)
  exact ⟨hname.symm, hrooted⟩

theorem of_entity?_of_owns (hs : Sound c s) (hgraph : FromGraph c s.loaded) {g : Globals}
    (howns : Owns s n g) {e : Entity} (he : g.entity? n = some e) : e.name = n ∧ e.Rooted := by
  cases howns with
  | bundled hn hk =>
    rw [hs.bundled] at hk
    rw [Prelude.checked_of_read hk] at he
    have hmem := Table.mem_of_get? he
    exact ⟨(Prelude.sourced_checked.keyed _ hmem).symm,
      Prelude.sourced_checked.globals.entities _ hmem⟩
  | loaded hn hk =>
    obtain ⟨l, hl, -, rfl⟩ := mem_of_lookup? hk
    exact (hgraph.knows l hl).of_entity? he

theorem described_of_owns (hs : Sound c s) (hgraph : FromGraph c s.loaded) {g context : Globals}
    (howns : Owns s n g) (hknown : (g.entity? n).isSome) (hscope : InScope s context) :
    Described s n := by
  obtain ⟨e, he⟩ := Option.isSome_iff_exists.1 hknown
  obtain ⟨i, hi, rfl⟩ := run_info? hs howns he hscope
  exact ⟨i, hi, (of_entity?_of_owns hs hgraph howns he).1⟩

theorem exists_owns_of_provided (hs : Sound c s) (h : Provided c s.loaded n) :
    ∃ g, Owns s n g ∧ (g.entity? n).isSome := by
  unfold Provided at h
  split at h
  · next hn =>
    obtain ⟨k, hk, hknown⟩ := h
    exact ⟨k.globals, .bundled hn (hs.bundled.trans hk), hknown⟩
  · next hn =>
    obtain ⟨k, hk, hknown⟩ := h
    exact ⟨k.globals, .loaded hn hk, hknown⟩

/-- Nothing is said of a name of the bundled module with a character that the text of this module
does not have, wherever the name is in scope. -/
theorem not_described (hs : Sound c s) (hn : n.module = preludeModule) {x : Char}
    (hx : x ∈ n.occ.toList) (hsource : x ∉ Prelude.source.toList)
    (hlist : ∀ e ∈ Check.Declare.listEntities, x ∉ e.name.occ.toList) : ¬ Described s n := by
  rintro ⟨i, hi, -⟩
  obtain ⟨g, -, howns, he, -⟩ := owner_of_info hi
  cases howns with
  | bundled _ hk =>
    rw [hs.bundled] at hk
    rw [Prelude.checked_of_read hk, Prelude.entity?_eq_none hx hsource hlist] at he
    cases he
  | loaded hne => exact hne hn

/-- The bundled module knows the name, if it is one of that module. -/
def KnownIfBundled (s : Session) (n : Name) : Prop :=
  n.module = preludeModule → ∃ k, s.bundled = .ok k ∧ (k.globals.entity? n).isSome

/-- A name in scope is described if and only if it is not a name of the bundled module that the
bundled module does not know. -/
theorem described_iff (hs : Sound c s) (hgraph : FromGraph c s.loaded) {g : Globals}
    (hscope : InScope s g) {space : Namespace} {occ : String} {d : Declared}
    (hd : d ∈ g.scope.lookup space occ) : Described s d.name ↔ KnownIfBundled s d.name := by
  refine ⟨fun ⟨i, hi, _⟩ hn => ?_, fun hknown => ?_⟩
  · obtain ⟨g', -, howns, he, -⟩ := owner_of_info hi
    cases howns with
    | bundled _ hk => exact ⟨_, hk, by rw [he]; rfl⟩
    | loaded hne _ => exact absurd hn hne
  · by_cases hn : d.name.module = preludeModule
    · obtain ⟨k, hk, hsome⟩ := hknown hn
      exact described_of_owns hs hgraph (.bundled hn hk) hsome hscope
    cases hscope with
    | @context m k hm hk =>
      obtain ⟨l, hl, hname, rfl⟩ := mem_of_lookup? hk
      obtain ⟨hsome, hown | hprovided⟩ := (hgraph.knows l hl).scope space occ d hd
      · rw [hname] at hown
        rw [← hown] at hk
        exact described_of_owns hs hgraph (.loaded hn hk) hsome (.context hm (hown ▸ hk))
      · obtain ⟨g', howns, hsome'⟩ := exists_owns_of_provided hs hprovided
        exact described_of_owns hs hgraph howns hsome' (.context hm hk)
    | bundled hnone hk =>
      rw [hs.bundled] at hk
      rw [Prelude.checked_of_read hk] at hd
      exact absurd (Prelude.module_of_scope hd) hn

/-- In the scope of a loaded module that is not called as the bundled one, all names are known to
their modules. -/
theorem knownIfBundled_of_context (hs : Sound c s) (hgraph : FromGraph c s.loaded) {m : String}
    {k : Checked} (hk : s.checked? m = some k) (hm : m ≠ preludeModule) {space : Namespace}
    {occ : String} {d : Declared} (hd : d ∈ k.globals.scope.lookup space occ) :
    KnownIfBundled s d.name := by
  intro hn
  obtain ⟨l, hl, hname, rfl⟩ := mem_of_lookup? hk
  obtain ⟨-, hown | hprovided⟩ := (hgraph.knows l hl).scope space occ d hd
  · exact absurd (hname.symm.trans (hown.symm.trans hn)) hm
  · obtain ⟨g, howns, hknown⟩ := exists_owns_of_provided hs hprovided
    cases howns with
    | bundled _ hk => exact ⟨_, hk, hknown⟩
    | loaded hne _ => exact absurd hn hne

/-- Without a context it is the bundled module's scope that names are found in. -/
theorem knownIfBundled_of_bundled (hs : Sound c s) {k : Checked} (hk : s.bundled = .ok k)
    (haccepted : Prelude.Accepted) {space : Namespace} {occ : String} {d : Declared}
    (hd : d ∈ k.globals.scope.lookup space occ) : KnownIfBundled s d.name := by
  intro _
  refine ⟨k, hk, ?_⟩
  rw [hs.bundled] at hk
  rw [Prelude.checked_of_read hk] at hd ⊢
  exact Prelude.known_of_accepted haccepted space occ d hd

theorem Later.bundled (h : Later c s t) (hs : Sound c s) : t.bundled = s.bundled :=
  h.sound.bundled.trans hs.bundled.symm

theorem Later.info? (h : Later c s t) (hs : Sound c s) (n : Name) :
    ((info? n).run t).1 = ((info? n).run s).1 :=
  (agrees_info? n s t hs h.sound h.scope).1.symm

theorem Later.described_iff (h : Later c s t) (hs : Sound c s) :
    Described t n ↔ Described s n := by
  rw [Described, Described, h.info? hs]

theorem Later.knownIfBundled_iff (h : Later c s t) (hs : Sound c s) :
    KnownIfBundled t n ↔ KnownIfBundled s n := by
  rw [KnownIfBundled, KnownIfBundled, h.bundled hs]

-- Texts

theorem mapM_info? (hs : Sound c s) (ht : Later c s t) {P : Declared → Info → Prop}
    {ds : List Declared} (h : ∀ d ∈ ds, ∃ i, ((info? d.name).run s).1 = .ok (some i) ∧ P d i) :
    let r := (ds.mapM fun d => info? d.name).run t
    (∃ infos, r.1 = .ok (infos.map some) ∧ List.Forall₂ P ds infos) ∧ Later c s r.2 := by
  induction ds generalizing t with
  | nil => exact ⟨⟨[], rfl, .nil⟩, ht⟩
  | cons d ds ih =>
    obtain ⟨⟨i, hi, hP⟩, hds⟩ := List.forall_mem_cons.1 h
    rw [← ht.info? hs] at hi
    have hlater := ht.run (onlyReads_info? d.name) (agrees_info? d.name)
    intro r
    have hr : r = ((info? d.name >>= fun i => do
      let is ← ds.mapM fun d => info? d.name
      return i :: is : SessionM (List (Option Info))).run t) := by
      simp only [r, List.mapM_cons]
    rw [run_bind] at hr
    rcases hrun : (info? d.name).run t with ⟨x, u⟩
    rw [hrun] at hi hlater hr
    obtain rfl : x = .ok (some i) := hi
    obtain ⟨⟨infos, hinfos, hall⟩, hlater'⟩ := ih hlater hds
    dsimp only at hr
    rw [run_bind] at hr
    rcases hrest : (ds.mapM fun d => info? d.name).run u with ⟨y, v⟩
    rw [hrest] at hr hinfos hlater'
    obtain rfl : y = .ok (infos.map some) := hinfos
    rw [hr]
    exact ⟨⟨i :: infos, rfl, .cons hP hall⟩, hlater'⟩

end Session

namespace Info

/-- Something is left when constructors and methods give way to their types and classes. -/
theorem withoutChildren_ne_nil {infos : List Info} (h : ∀ i ∈ infos, i.entity.Rooted)
    (hne : infos ≠ []) : withoutChildren infos ≠ [] := by
  have hkept {i : Info} (hi : i ∈ infos)
      (hparent : ∀ n ∈ i.entity.parent?, n ∉ infos.map (·.entity.name)) :
      withoutChildren infos ≠ [] := by
    refine List.ne_nil_of_mem (List.mem_filter.2 ⟨hi, ?_⟩)
    rw [Bool.not_eq_true', Option.any_eq_false]
    intro n hn
    simpa using hparent n hn
  by_cases htype : ∃ i ∈ infos, i.entity.name.space = .type
  · obtain ⟨i, hi, hspace⟩ := htype
    refine hkept hi fun n hn => ?_
    rw [(h i hi).top hspace] at hn
    cases hn
  · obtain ⟨i, hi⟩ := List.exists_mem_of_ne_nil infos hne
    refine hkept hi fun n hn hmem => htype ?_
    obtain ⟨j, hj, rfl⟩ := List.mem_map.1 hmem
    exact ⟨j, hj, (h i hi).parent _ hn⟩

theorem intercalate_ne_empty {sep a : String} (h : a ≠ "") (as : List String) :
    sep.intercalate (a :: as) ≠ "" := by
  rw [Ne, ← String.toList_inj, String.toList_intercalate]
  cases as <;> simp [h]

theorem renderAll_ne_empty (p : Policy) {infos : List Info} (h : infos ≠ []) :
    renderAll p infos ≠ "" := by
  obtain ⟨i, is, rfl⟩ := List.exists_cons_of_ne_nil h
  refine intercalate_ne_empty (intercalate_ne_empty ?_ _) _
  simp [Entity.renderInContext]

end Info

namespace Session

theorem rooted_of_info (hs : Sound c s) (hgraph : FromGraph c s.loaded) {i : Info}
    (h : ((info? n).run s).1 = .ok (some i)) : i.entity.Rooted := by
  obtain ⟨g, -, howns, he, -⟩ := owner_of_info h
  exact (of_entity?_of_owns hs hgraph howns he).2

/-- If all names are described that a text is found to mean, then the text is. -/
theorem describe_ne_empty (hs : Sound c s) (hgraph : FromGraph c s.loaded) {text : String}
    {ds : List Declared} (hp : ((parseName text).run s).1 = .ok ds)
    (h : ∀ d ∈ ds, Described s d.name) : ∃ r, ((describe text).run s).1 = .ok r ∧ r ≠ "" := by
  obtain ⟨g, hscope, hne, -⟩ := scope_of_parseName hp
  have hlater := (later_refl hs).run (onlyReads_parseName text) (agrees_parseName text)
  rw [describe, run_bind]
  rcases hrun : (parseName text).run s with ⟨x, t⟩
  rw [hrun] at hp hlater
  obtain rfl : x = .ok ds := hp
  dsimp only
  obtain ⟨⟨infos, hinfos, hall⟩, hlater'⟩ := mapM_info? hs hlater
    (P := fun _ i => i.entity.Rooted) fun d hd => by
      obtain ⟨i, hi, -⟩ := h d hd
      exact ⟨i, hi, rooted_of_info hs hgraph hi⟩
  rw [run_bind]
  rcases hrest : (ds.mapM fun d => info? d.name).run t with ⟨y, u⟩
  rw [hrest] at hinfos hlater'
  obtain rfl : y = .ok (infos.map some) := hinfos
  rw [hrest]
  dsimp only
  have hglobals : (globals.run u).1 = .ok g :=
    ((agrees_globals s u hs hlater'.sound hlater'.scope).1).symm.trans (run_globals hscope)
  have hpolicy : (policy.run u).1 = .ok g.scope.policy := by
    rw [policy, run_bind]
    rcases hg : globals.run u with ⟨z, v⟩
    rw [hg] at hglobals
    obtain rfl : z = .ok g := hglobals
    rfl
  rw [run_bind]
  rcases hpol : policy.run u with ⟨z, v⟩
  rw [hpol] at hpolicy
  obtain rfl : z = .ok g.scope.policy := hpolicy
  have hrooted : ∀ i ∈ infos, i.entity.Rooted := fun i hi => by
    obtain ⟨d, hd⟩ := exists_of_forall₂ hall i hi
    exact hd
  refine ⟨_, rfl, Info.renderAll_ne_empty _ ?_⟩
  rw [List.filterMap_map, Function.id_comp, List.filterMap_some]
  refine Info.withoutChildren_ne_nil hrooted fun hnil => hne ?_
  rw [hnil] at hall
  exact List.forall₂_nil_right_iff.1 hall

/-- A name that is found in a session is described, and by something that has the name, unless it is
a name of the bundled module that the bundled module does not know. There are no such names in the
scope of a loaded module that has another name, and none in that of the bundled module itself if
there are no errors in it. If all names are described that a text can mean, then so is the text. -/
theorem describes_names (h : Reachable c s) (text : String) (ds : List Declared)
    (hp : ((parseName text).run s).1 = .ok ds) :
    let t := ((parseName text).run s).2
    (∀ d ∈ ds, Described t d.name ↔ KnownIfBundled t d.name) ∧
      (∀ m, s.context = some m → (s.checked? m).isSome → m ≠ preludeModule →
        ∀ d ∈ ds, KnownIfBundled t d.name) ∧
      (s.context.bind s.checked? = none → Prelude.Accepted →
        ∀ d ∈ ds, KnownIfBundled t d.name) ∧
      ((∀ d ∈ ds, Described t d.name) → ∃ r, ((describe text).run s).1 = .ok r ∧ r ≠ "") := by
  have hs := h.sound
  have hgraph := h.fromGraph
  obtain ⟨g, hscope, -, hds⟩ := scope_of_parseName hp
  have ht : Later c s ((parseName text).run s).2 :=
    (later_refl hs).run (onlyReads_parseName text) (agrees_parseName text)
  refine ⟨fun d hd => ?_, fun m hm hloaded hne d hd => ?_, fun hnone haccepted d hd => ?_,
    fun hall => describe_ne_empty hs hgraph hp fun d hd => (ht.described_iff hs).1 (hall d hd)⟩
  · obtain ⟨space, occ, hd⟩ := hds d hd
    rw [ht.described_iff hs, ht.knownIfBundled_iff hs]
    exact described_iff hs hgraph hscope hd
  · obtain ⟨space, occ, hd⟩ := hds d hd
    rw [ht.knownIfBundled_iff hs]
    obtain ⟨k, hk⟩ := Option.isSome_iff_exists.1 hloaded
    have hcontext : s.context.bind s.checked? = some k := Option.bind_eq_some_iff.2 ⟨m, hm, hk⟩
    cases hscope with
    | @context m' k' hm' hk' =>
      obtain rfl : m = m' := Option.some.inj (hm.symm.trans hm')
      exact knownIfBundled_of_context hs hgraph hk' hne hd
    | bundled hnone =>
      rw [hcontext] at hnone
      cases hnone
  · obtain ⟨space, occ, hd⟩ := hds d hd
    rw [ht.knownIfBundled_iff hs]
    cases hscope with
    | context hm hk =>
      rw [Option.bind_eq_some_iff.2 ⟨_, hm, hk⟩] at hnone
      cases hnone
    | bundled _ hk => exact knownIfBundled_of_bundled hs hk haccepted hd

/-- A new session whose target is a module with the name of the bundled one. -/
def shadowingFiles : Files :=
  [(⟨0, ["Prelude.hs"]⟩, .file ("module Prelude\nf x = x".toList.map fun c => c.toNat.toUInt8))]

/-- The session after the module was loaded. -/
def shadowing : Session :=
  (Session.after [] { config := { implicitPrelude := false } }
    (.setTargets [.file ⟨0, ["Prelude.hs"]⟩])).after shadowingFiles .load

theorem reachable_shadowing : Reachable { implicitPrelude := false } shadowing :=
  (Reachable.new.after [] _).after shadowingFiles .load

/-- The names that a text is found to mean. -/
def namesIn (s : Session) (text : String) : Option (List Name) :=
  ((parseName text).run s).1.toOption.map fun ds => ds.map (·.name)

theorem exists_of_namesIn {text : String} {ns : List Name} (h : namesIn s text = some ns) :
    ∃ ds, ((parseName text).run s).1 = .ok ds ∧ ds.map (·.name) = ns := by
  rw [namesIn] at h
  cases hp : ((parseName text).run s).1 with
  | error e =>
    rw [hp] at h
    cases h
  | ok ds =>
    rw [hp] at h
    exact ⟨ds, rfl, Option.some.inj h⟩

/-- A module with the name of the bundled one, and with a letter that the bundled one does not have. -/
def unlistedFiles : Files :=
  [(⟨0, ["Prelude.hs"]⟩, .file ("module Prelude\nz x = x".toList.map fun c => c.toNat.toUInt8))]

/-- A new session whose target is this module. -/
def unlisted : Session :=
  Session.after [] { config := { implicitPrelude := false } } (.setTargets [.file ⟨0, ["Prelude.hs"]⟩])

/-- The module is loaded, and its name is found but not described. -/
theorem not_described_of_unlisted :
    let s := unlisted.after unlistedFiles .load
    ((load unlistedFiles).run unlisted).1 = .ok () ∧ ∃ ds, ((parseName "z").run s).1 = .ok ds ∧
      ds.map (·.name) = [⟨"z", preludeModule, .value, 0⟩] ∧
      ∀ d ∈ ds, ¬ Described ((parseName "z").run s).2 d.name := by
  intro s
  have hreachable : Reachable { implicitPrelude := false } s :=
    (Reachable.new.after [] _).after unlistedFiles .load
  have hload : ((load unlistedFiles).run unlisted).1 = .ok () :=
    succeeds_of_toBool (by decide +kernel)
  have hnames : namesIn s "z" = some [⟨"z", preludeModule, .value, 0⟩] := by decide +kernel
  obtain ⟨ds, hp, hnames⟩ := exists_of_namesIn hnames
  have ht : Later { implicitPrelude := false } s ((parseName "z").run s).2 :=
    (later_refl hreachable.sound).run (onlyReads_parseName "z") (agrees_parseName "z")
  refine ⟨hload, ds, hp, hnames, fun d hd => ?_⟩
  have hname : d.name = ⟨"z", preludeModule, .value, 0⟩ :=
    List.mem_singleton.1 (hnames ▸ List.mem_map_of_mem hd)
  rw [ht.described_iff hreachable.sound, hname]
  exact not_described hreachable.sound rfl (x := 'z') (by decide) Prelude.not_mem_source (by decide)

/-- An imported name is described. A name of a loaded module called as the bundled one denotes
something there, but whether it is described is up to the bundled module. -/
theorem describes_names_of_context :
    (∃ ds, ((parseName "y").run filled).1 = .ok ds ∧
        ds.map (·.name) = [⟨"y", "A", .value, 0⟩] ∧
        (∀ d ∈ ds, Described ((parseName "y").run filled).2 d.name) ∧
        ∃ r, ((describe "y").run filled).1 = .ok r ∧ r ≠ "") ∧
      ∃ ds, ((parseName "f").run shadowing).1 = .ok ds ∧
        ds.map (·.name) = [⟨"f", preludeModule, .value, 0⟩] ∧
        (∃ k, shadowing.checked? preludeModule = some k ∧
          (k.globals.entity? ⟨"f", preludeModule, .value, 0⟩).isSome) ∧
        ∀ d ∈ ds, Described ((parseName "f").run shadowing).2 d.name ↔
          KnownIfBundled ((parseName "f").run shadowing).2 d.name := by
  constructor
  · have hnames : namesIn filled "y" = some [⟨"y", "A", .value, 0⟩] := by decide +kernel
    obtain ⟨ds, hp, hnames⟩ := exists_of_namesIn hnames
    obtain ⟨hiff, hknown, -, hdescribe⟩ := describes_names reachable_filled "y" ds hp
    have hall : ∀ d ∈ ds, Described ((parseName "y").run filled).2 d.name := fun d hd =>
      (hiff d hd).2 (hknown "Main" (by decide +kernel) (by decide +kernel) (by decide) d hd)
    exact ⟨ds, hp, hnames, hall, hdescribe hall⟩
  · have hnames : namesIn shadowing "f" = some [⟨"f", preludeModule, .value, 0⟩] := by
      decide +kernel
    obtain ⟨ds, hp, hnames⟩ := exists_of_namesIn hnames
    obtain ⟨hiff, -⟩ := describes_names reachable_shadowing "f" ds hp
    have hhome : ((shadowing.checked? preludeModule).any fun k =>
        (k.globals.entity? ⟨"f", preludeModule, .value, 0⟩).isSome) = true := by decide +kernel
    obtain ⟨k, hk, hsome⟩ := (Option.any_eq_true _ _).1 hhome
    exact ⟨ds, hp, hnames, ⟨k, hk, hsome⟩, hiff⟩

end Session

end TypeLens
