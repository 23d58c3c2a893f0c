import TypeLens.Proofs.Session.History
import TypeLens.Proofs.Session.Obstacles
import TypeLens.Proofs.Session.Worklist
import TypeLens.Proofs.Surface.Imports

/-!
Which failures get out of a question. Whatever is wrong with the source is answered; what is left
are literals without a value in a file that is read, names for which no file can be looked up, and
a tab width by which nothing can be measured.
-/

namespace TypeLens

namespace Session

section Causes

variable (fs : Files) (c : Config) (file : String)

/-- The files that a question about a file comes to read: its own, and those of the modules that
they import. -/
inductive Requested : Path → Prop
  | file {p : Path} (h : guessTarget fs file = .ok (.file p)) : Requested p
  | module {m : String} {p : Path} (h : guessTarget fs file = .ok (.module m))
      (hp : findModule fs c m none = .ok (some p)) : Requested p
  | imported {p q : Path} {m : Surface.Module} {i : Surface.ImportDecl} (h : Requested p)
      (hm : Surface.parseFile fs c.tabWidth p.render = .ok m) (hi : i ∈ m.imports)
      (hq : findModule fs c i.module (some p) = .ok (some q)) : Requested q

/-- The names that are looked up for a question: its own, and module files in the directories where
they can be. -/
inductive LookedUp : Path → Prop
  | file : LookedUp (.ofString file)
  | target {p dir : Path} (h : moduleFile file = .ok p) (hd : some dir ∈ searchDirs c none) :
      LookedUp (dir.join p)
  | imported {p q dir : Path} {m : Surface.Module} {i : Surface.ImportDecl}
      (h : Requested fs c file p) (hm : Surface.parseFile fs c.tabWidth p.render = .ok m)
      (hi : i ∈ m.imports) (hq : moduleFile i.module = .ok q)
      (hd : some dir ∈ searchDirs c (some p)) : LookedUp (dir.join q)

/-- Why a question about a file can fail though the source is not at fault. -/
inductive Cause : Failure → Prop
  /-- A literal has no value in a file that is read. -/
  | literal {p : Path} {source : String} {g : Surface.Fault} (h : Requested fs c file p)
      (hs : Surface.readSource fs p.render = .ok source) (hg : g ∈ Surface.textFaults source) :
      Cause g.failure
  /-- A name that is looked up is too long. -/
  | nameTooLong {p : Path} (h : LookedUp fs c file p) (hp : fs.find p = .error .nameTooLong) :
      Cause (.badFileName .nameTooLong)
  /-- The file is taken for a module without a name. -/
  | emptyModuleName (h : moduleFile file = .error .emptyModuleName) : Cause .emptyModuleName
  /-- The bundled module cannot be read either. -/
  | tabWidth {f : Failure} (h : Prelude.read c.tabWidth = .error f) : Cause f
  | noImportPath (h : none ∈ c.importPaths) : Cause (.missing .importPath)

end Causes

variable {fs : Files} {c : Config} {file : String}

-- Reading files

theorem ends_isFile {p : Path} (h : LookedUp fs c file p) :
    Ends (Cause fs c file) (fun b => fs.isFile p = .ok b) (fs.isFile p) := by
  refine .self fun f hp => .inr ?_
  unfold Files.isFile at hp
  split at hp
  · cases hp
  · rename_i hf
    cases hp
    exact .nameTooLong h hf
  · cases hp

theorem isModuleName_of_parseFile {w : Option Int} {name : String} {m : Surface.Module}
    (h : Surface.parseFile fs w name = .ok m) :
    ∀ i ∈ m.imports, Surface.IsModuleName i.module := by
  obtain ⟨w, source, hsource⟩ := Surface.exists_source_of_parseFile h
  exact Surface.isModuleName_of_mem_imports hsource

-- Looking for modules

theorem ends_findIn {p : Path} {dirs : List (Option Path)}
    (hall : ∀ dir, some dir ∈ dirs → LookedUp fs c file (dir.join p))
    (hnone : none ∈ dirs → none ∈ c.importPaths) :
    Ends (Cause fs c file) (fun r => findIn fs p dirs = .ok r) (findIn fs p dirs) := by
  suffices h : Ends (Cause fs c file) (fun _ => True) (findIn fs p dirs) from
    .self fun f hf => (hf ▸ h).of_error
  induction dirs with
  | nil => exact .ok trivial
  | cons dir dirs ih =>
    cases dir with
    | none => exact .error (.inr (.noImportPath (hnone List.mem_cons_self)))
    | some dir =>
      refine (ends_isFile (hall dir List.mem_cons_self)).bind fun b _ => ?_
      have := ih (fun d hd => hall d (List.mem_cons_of_mem _ hd))
        fun hn => hnone (List.mem_cons_of_mem _ hn)
      cases b with
      | true => exact .ok trivial
      | false => exact this

theorem none_mem_searchDirs {near : Option Path} (h : none ∈ searchDirs c near) :
    none ∈ c.importPaths := by
  unfold searchDirs at h
  cases near <;> grind

theorem ends_findModule {module : String} {near : Option Path}
    (hname : ∀ f, moduleFile module = .error f → Cause fs c file f)
    (hlook : ∀ p dir, moduleFile module = .ok p → some dir ∈ searchDirs c near →
      LookedUp fs c file (dir.join p)) :
    Ends (Cause fs c file) (fun r => findModule fs c module near = .ok r)
      (findModule fs c module near) := by
  unfold findModule
  cases hp : moduleFile module with
  | error f => exact .error (.inr (hname f hp))
  | ok p => exact ends_findIn (fun dir hd => hlook p dir hp hd) none_mem_searchDirs

theorem findIn_eq_some {p q : Path} {dirs : List (Option Path)}
    (h : findIn fs p dirs = .ok (some q)) : ∃ dir, some dir ∈ dirs ∧ q = dir.join p := by
  induction dirs with
  | nil => cases h
  | cons dir dirs ih =>
    cases dir with
    | none => cases h
    | some dir =>
      rw [findIn] at h
      cases hb : fs.isFile (dir.join p) with
      | error f => rw [hb] at h; cases h
      | ok b =>
        rw [hb] at h
        cases b with
        | true =>
          cases h
          exact ⟨dir, List.mem_cons_self, rfl⟩
        | false =>
          obtain ⟨d, hd, hq⟩ := ih h
          exact ⟨d, List.mem_cons_of_mem _ hd, hq⟩

theorem findModule_eq_some {module : String} {near : Option Path} {q : Path}
    (h : findModule fs c module near = .ok (some q)) :
    ∃ p dir, moduleFile module = .ok p ∧ some dir ∈ searchDirs c near ∧ q = dir.join p := by
  unfold findModule at h
  cases hp : moduleFile module with
  | error f => rw [hp] at h; cases h
  | ok p =>
    rw [hp] at h
    obtain ⟨dir, hd, hq⟩ := findIn_eq_some h
    exact ⟨p, dir, rfl, hd, hq⟩

variable (fs c file) in
theorem ends_guessTarget :
    Ends (Cause fs c file)
      (fun t => guessTarget fs file = .ok t ∧ (t = .file (.ofString file) ∨ t = .module file))
      (guessTarget fs file) := by
  unfold guessTarget
  dsimp only
  split
  · exact .ok ⟨rfl, .inl rfl⟩
  · have hfile := ends_isFile (.file : LookedUp fs c file (.ofString file))
    cases hb : fs.isFile (.ofString file) with
    | error f =>
      rw [hb] at hfile
      exact .error hfile.of_error
    | ok b =>
      cases b with
      | true => exact .ok ⟨rfl, .inl rfl⟩
      | false => exact .ok ⟨rfl, .inr rfl⟩

theorem Requested.lookedUp {p : Path} (h : Requested fs c file p) : LookedUp fs c file p := by
  have target {t : Target} (ht : guessTarget fs file = .ok t) :
      t = .file (.ofString file) ∨ t = .module file := by
    have := ends_guessTarget fs c file
    rw [ht] at this
    exact this.of_ok.2
  cases h with
  | file h =>
    rcases target h with h | h <;> cases h
    exact .file
  | module h hp =>
    rcases target h with h | h <;> cases h
    obtain ⟨q, dir, hq, hd, rfl⟩ := findModule_eq_some hp
    exact .target hq hd
  | imported h hm hi hfound =>
    obtain ⟨q, dir, hq, hd, rfl⟩ := findModule_eq_some hfound
    exact .imported h hm hi hq hd

-- Finding modules

open ModuleGraph

/-- The module can be read again. -/
def IsRead (fs : Files) (c : Config) (m : Summary) : Prop :=
  ∃ p source, m.file = some p ∧ Surface.parseFile fs c.tabWidth p.render = .ok source

theorem Requested.of_opened {t : Target} (ht : guessTarget fs file = .ok t) {p : Path}
    (h : Opened fs c [t] p) : Requested fs c file p := by
  induction h with
  | target hmem hp =>
    obtain rfl := List.mem_singleton.1 hmem
    have hguess := ends_guessTarget fs c file
    rw [ht] at hguess
    rcases hguess.of_ok.2 with rfl | rfl
    · cases hp
      exact .file ht
    · exact .module ht hp
  | imported _ hm hi hq ih => exact .imported ih hm hi hq

/-- What stands in the way of finding the modules for a question is a cause for it to fail. -/
theorem cause_of_obstacle {t : Target} (ht : guessTarget fs file = .ok t) {f : Failure}
    (h : Obstacle fs c [t] f) : (∃ ds, f = .source ds) ∨ Cause fs c file f := by
  cases h with
  | literal h hs hg => exact .inr (.literal (.of_opened ht h) hs hg)
  | tabWidth hw => exact .inr (.tabWidth (by rw [hw]; rfl))
  | unmeasurable hw h => exact .inr (.tabWidth (by rw [hw, Prelude.read, h]; rfl))
  | name h hf =>
    have hends := ends_isFile (Requested.of_opened ht h).lookedUp
    exact (hf ▸ hends).of_error
  | target hmem hf =>
    obtain rfl := List.mem_singleton.1 hmem
    have hguess := ends_guessTarget fs c file
    rw [ht] at hguess
    rcases hguess.of_ok.2 with rfl | rfl
    · cases hf
    · have hname (f : Failure) (hf : moduleFile file = .error f) : Cause fs c file f := by
        have hempty : f = .emptyModuleName := by
          unfold moduleFile at hf
          dsimp only at hf
          split at hf <;> cases hf
          rfl
        exact hempty ▸ .emptyModuleName (hempty ▸ hf)
      have hends : Ends (Cause fs c file) (fun r => findModule fs c file none = .ok r)
          (findModule fs c file none) := ends_findModule hname fun p dir => .target
      have hf : findModule fs c file none = .error f := hf
      exact (hf ▸ hends).of_error
  | @imported p m i f h hm hi hf =>
    obtain ⟨hne, hdot, hslash⟩ := isModuleName_of_parseFile hm i hi
    have hfile := moduleFile_of_word hne hdot hslash
    have hfind : Ends (Cause fs c file) (fun r => findModule fs c i.module (some p) = .ok r)
        (findModule fs c i.module (some p)) :=
      ends_findModule (fun f hf => by rw [hfile] at hf; cases hf)
        fun q dir => .imported (.of_opened ht h) hm hi
    exact (hf ▸ hfind).of_error

theorem ends_build {t : Target} (ht : guessTarget fs file = .ok t) :
    Ends (Cause fs c file) (fun found => ∀ f ∈ found, IsRead fs c f.summary) (build fs c [t]) := by
  cases hbuild : build fs c [t] with
  | error f =>
    have hends := ModuleGraph.ends_build fs c [t]
    rw [hbuild] at hends
    exact .error (hends.of_error.elim .inl (cause_of_obstacle ht))
  | ok found =>
    refine .ok fun f hf => ?_
    obtain ⟨p, hp, hparse⟩ := (isRead_of_build hbuild f hf).source
    exact ⟨p, f.source, hp, hparse⟩

-- Work in a session

/-- Work that is done with the configuration `c`, and with sessions as in `I`, ends as `Ends` says;
`J` is what it leaves. -/
def Does {α : Type} (fs : Files) (c : Config) (file : String) (I : Session → Prop)
    (J : α → Session → Prop) (act : SessionM α) : Prop :=
  ∀ s, s.config = c → I s → (act.run s).2.config = c ∧
    Ends (Cause fs c file) (fun a => J a (act.run s).2) (act.run s).1

namespace Does

variable {α β : Type} {I : Session → Prop} {J : α → Session → Prop} {K : β → Session → Prop}
  {act : SessionM α}

protected theorem pure {a : α} (h : ∀ s, I s → J a s) :
    Does fs c file I J (pure a : SessionM α) := fun s hc hs => ⟨hc, .ok (h s hs)⟩

theorem ofExcept {x : Except Failure α} {Q : α → Prop} (hx : Ends (Cause fs c file) Q x)
    (h : ∀ a s, Q a → I s → J a s) : Does fs c file I J (ofExcept x : SessionM α) := by
  intro s hc hs
  cases x with
  | ok a => exact ⟨hc, .ok (h a s hx.of_ok hs)⟩
  | error f => exact ⟨hc, .error hx.of_error⟩

theorem throw {f : Failure} (hf : (∃ ds, f = .source ds) ∨ Cause fs c file f) :
    Does fs c file I J (MonadExcept.throw f : SessionM α) :=
  fun _ hc _ => ⟨hc, .error hf⟩

theorem bind {k : α → SessionM β} (hact : Does fs c file I J act)
    (hk : ∀ a, Does fs c file (J a) K (k a)) : Does fs c file I K (act >>= k) := by
  intro s hc hs
  have h := hact s hc hs
  rw [run_bind]
  rcases hr : act.run s with ⟨r, s'⟩
  rw [hr] at h
  cases r with
  | ok a => exact hk a s' h.1 h.2.of_ok
  | error f => exact ⟨h.1, .error h.2.of_error⟩

/-- What failures are dealt with says how the work can still fail. -/
theorem tryCatch {handle : Failure → SessionM α} (hact : Does fs c file I J act)
    (hhandle : ∀ f, (∃ ds, f = .source ds) ∨ Cause fs c file f →
      Does fs c file (fun _ => True) J (handle f)) : Does fs c file I J (tryCatch act handle) := by
  intro s hc hs
  have h := hact s hc hs
  rw [run_tryCatch]
  rcases hr : act.run s with ⟨r, s'⟩
  rw [hr] at h
  cases r with
  | ok a => exact h
  | error f => exact hhandle f h.2.of_error s' h.1 trivial

theorem get_bind {k : Session → SessionM β}
    (hk : ∀ s, s.config = c → I s → Does fs c file (· = s) K (k s)) :
    Does fs c file I K (get >>= k) := fun s hc hs => hk s hc hs s hc rfl

theorem modify {u : Session → Session} {J : Unit → Session → Prop}
    (hc : ∀ s, (u s).config = s.config) (h : ∀ s, I s → J () (u s)) :
    Does fs c file I J (modify u : SessionM Unit) :=
  fun s hs hI => ⟨(hc s).trans hs, .ok (h s hI)⟩

theorem mapM {f : β → SessionM α} (hf : ∀ b, Does fs c file I (fun _ => I) (f b)) (bs : List β) :
    Does fs c file I (fun _ => I) (bs.mapM f) := by
  induction bs with
  | nil => rw [List.mapM_nil]; exact .pure fun _ h => h
  | cons b bs ih =>
    rw [List.mapM_cons]
    exact (hf b).bind fun a => ih.bind fun as => .pure fun _ h => h

theorem mono {I' : Session → Prop} {J' : α → Session → Prop} (h : Does fs c file I J act)
    (hI : ∀ s, I' s → I s) (hJ : ∀ a s, J a s → J' a s) : Does fs c file I' J' act :=
  fun s hc hs => ⟨(h s hc (hI s hs)).1, (h s hc (hI s hs)).2.mono fun a => hJ a _⟩

end Does

/-- What is said of what is loaded. -/
def OfLoaded (P : List Loaded → Prop) (s : Session) : Prop := P s.loaded

variable {P : List Loaded → Prop}

theorem does_readBundled :
    Does fs c file (OfLoaded P) (fun _ => OfLoaded P) readBundled := by
  refine .get_bind fun s hc hs => ?_
  have hread : Ends (Cause fs c file) (fun _ => True) s.bundled := by
    rw [bundled]
    cases s.kept with
    | some m => exact .ok trivial
    | none =>
      rw [hc]
      cases hr : Prelude.read c.tabWidth with
      | ok m => exact .ok trivial
      | error f => exact .error (.inr (.tabWidth hr))
  refine (Does.ofExcept (J := fun _ t => t = s) hread fun _ _ _ h => h).bind fun m => ?_
  refine Does.bind (J := fun _ => OfLoaded P) (.modify (fun _ => rfl) ?_) fun _ => .pure fun _ h => h
  rintro _ rfl
  exact hs

theorem does_exportsOf (module : String) :
    Does fs c file (OfLoaded P) (fun _ => OfLoaded P) (exportsOf module) := by
  rw [exportsOf]
  split
  · exact does_readBundled.bind fun _ => .pure fun _ h => h
  · refine .get_bind fun s hc hs => ?_
    cases s.checked? module with
    | some m => exact .pure fun _ h => h ▸ hs
    | none => exact .throw (.inl ⟨_, rfl⟩)

/-- The checker finds fault with the source only. -/
theorem ends_module (m : Surface.Module) (imports : List Exports) :
    Ends (Cause fs c file) (fun _ => True) (Check.module m imports) := by
  rw [Check.module]
  split
  · exact .source
  · exact .ok trivial

theorem does_check (m : Surface.Module) :
    Does fs c file (OfLoaded P) (fun _ => OfLoaded P) (check m) := by
  refine .get_bind fun s hc hs => ?_
  have hexports : Does fs c file (· = s) (fun _ => OfLoaded P)
      ((importNames s.config m).mapM exportsOf) :=
    (Does.mapM does_exportsOf _).mono (fun _ h => h ▸ hs) fun _ _ h => h
  exact hexports.bind fun exports => .ofExcept (ends_module m exports) fun _ _ _ h => h

/-- All that is loaded can be read again. -/
def AllRead (fs : Files) (c : Config) (loaded : List Loaded) : Prop :=
  ∀ l ∈ loaded, IsRead fs c l.summary

theorem does_checkAll {found : List Found} (h : ∀ f ∈ found, IsRead fs c f.summary) :
    Does fs c file (OfLoaded (AllRead fs c)) (fun _ => OfLoaded (AllRead fs c))
      (checkAll found) := by
  induction found with
  | nil => exact .pure fun _ h => h
  | cons f found ih =>
    refine (does_check f.source).bind fun m => ?_
    refine Does.bind (J := fun _ => OfLoaded (AllRead fs c)) (.modify (fun _ => rfl) ?_) fun _ =>
      ih fun g hg => h g (List.mem_cons_of_mem f hg)
    intro s hs l hl
    rcases List.mem_append.mp hl with hl | hl
    · exact hs l hl
    · obtain rfl := List.mem_singleton.mp hl
      exact h f List.mem_cons_self

theorem does_loadTargets {t : Target} (ht : guessTarget fs file = .ok t) :
    Does fs c file (fun s => s.targets = [t]) (fun _ => OfLoaded (AllRead fs c))
      (loadTargets fs) := by
  refine Does.bind (J := fun _ s => s.targets = [t] ∧ s.loaded = [])
    (.modify (fun _ => rfl) fun s hs => ⟨hs, rfl⟩) fun _ => .get_bind fun s hc hs => ?_
  rw [hc, hs.1]
  refine (Does.ofExcept (J := fun found u => u = s ∧ ∀ f ∈ found, IsRead fs c f.summary)
    (ends_build ht) fun _ _ hf h => ⟨h, hf⟩).bind fun found => ?_
  intro u hu hfound
  refine does_checkAll hfound.2 u hu ?_
  rw [OfLoaded, hfound.1, hs.2]
  exact fun _ h => absurd h List.not_mem_nil

theorem does_load {t : Target} (ht : guessTarget fs file = .ok t) :
    Does fs c file (fun s => s.targets = [t]) (fun _ => OfLoaded (AllRead fs c)) (load fs) := by
  refine Does.bind (J := fun _ => OfLoaded (AllRead fs c)) ?_ fun _ =>
    .modify (fun _ => rfl) fun _ h => h
  refine (does_loadTargets ht).tryCatch fun f hf => ?_
  rcases hf with ⟨ds, rfl⟩ | hf
  · refine Does.bind (J := fun _ _ => True) (.modify (fun _ => rfl) fun _ _ => trivial) fun _ => ?_
    exact .throw (.inl ⟨ds, rfl⟩)
  · cases f with
    | source ds =>
      refine Does.bind (J := fun _ _ => True) (.modify (fun _ => rfl) fun _ _ => trivial) fun _ => ?_
      exact .throw (.inl ⟨ds, rfl⟩)
    | _ => exact .throw (.inr hf)

variable (fs file) in
/-- What is loaded for a question can be read again. -/
theorem does_loadFile :
    Does fs c file (fun _ => True) (fun _ => OfLoaded (AllRead fs c)) (loadFile fs file) := by
  refine Does.bind (J := fun t _ => guessTarget fs file = .ok t)
    (.ofExcept (ends_guessTarget fs c file) fun _ _ h _ => h.1) fun t s hc ht => ?_
  have hset : Does fs c file (fun _ => True) (fun _ s => s.targets = [t]) (setTargets [t]) :=
    .modify (u := ({ · with targets := [t] })) (fun _ => rfl) fun _ _ => rfl
  exact hset.bind (fun _ => does_load ht) s hc trivial

-- Questions

theorem does_parseModule {m : Summary} (hm : IsRead fs c m) :
    Does fs c file (fun _ => True) (fun _ _ => True) (parseModule fs m) := by
  obtain ⟨p, source, hp, hs⟩ := hm
  rw [parseModule, hp]
  refine .get_bind fun s hc _ => ?_
  rw [hc, hs]
  exact .pure fun _ _ => trivial

theorem does_typesAt (m : Summary) (checked : Checked) (p : Point) :
    Does fs c file (fun _ => True) (fun _ _ => True) (typesAt m checked p) := by
  have hanswer : Does fs c file (fun _ => True) (fun _ _ => True) (do
      let s ← get
      return Fragment.order (fragmentsOf (s.coreContext m.module checked.globals)
        (Typed.search checked.binds p)) : SessionM (List (Extent × String))) :=
    .get_bind fun _ _ _ => .pure fun _ _ => trivial
  have hread : Does fs c file (fun _ => True) (fun _ _ => True) readBundled :=
    does_readBundled (P := fun _ => True)
  rw [typesAt]
  dsimp only
  split
  · exact hread.bind fun _ => hanswer
  · exact hanswer

theorem does_setContext (module : String) :
    Does fs c file (fun _ => True) (fun _ _ => True) (setContext module) := by
  refine .get_bind fun s _ _ => ?_
  split
  · exact .modify (fun _ => rfl) fun _ _ => trivial
  · exact .throw (.inl ⟨_, rfl⟩)

theorem does_globals : Does fs c file (fun _ => True) (fun _ _ => True) globals := by
  refine .get_bind fun s _ _ => ?_
  split
  · exact .pure fun _ _ => trivial
  · exact (does_readBundled (P := fun _ => True)).mono (fun _ _ => trivial) (fun _ _ h => h) |>.bind
      fun _ => .pure fun _ _ => trivial

theorem does_parseName (text : String) :
    Does fs c file (fun _ => True) (fun _ _ => True) (parseName text) := by
  have hparse : Ends (Cause fs c file) (fun _ => True) (NameQuery.parse text) := by
    rw [NameQuery.parse]
    split
    · exact .ok trivial
    · exact .source
  refine (Does.ofExcept (J := fun _ _ => True) hparse fun _ _ _ _ => trivial).bind fun q =>
    does_globals.bind fun g => ?_
  dsimp only
  split
  · exact Does.bind (J := fun _ _ => True) (.throw (.inl ⟨_, rfl⟩)) fun _ => .pure fun _ h => h
  · exact .pure fun _ _ => trivial

theorem does_owner? (module : String) :
    Does fs c file (fun _ => True) (fun _ _ => True) (owner? module) := by
  rw [owner?]
  split
  · exact (does_readBundled (P := fun _ => True)).bind fun _ => .pure fun _ _ => trivial
  · exact .get_bind fun _ _ _ => .pure fun _ _ => trivial

theorem does_info? (n : Name) : Does fs c file (fun _ => True) (fun _ _ => True) (info? n) := by
  refine (does_owner? n.module).bind fun owner => ?_
  split
  · exact .pure fun _ _ => trivial
  · exact does_globals.bind fun _ => .pure fun _ _ => trivial

theorem does_describe (text : String) :
    Does fs c file (fun _ => True) (fun _ _ => True) (describe text) := by
  refine (does_parseName text).bind fun ds => ?_
  have hinfos : Does fs c file (fun _ => True) (fun _ _ => True) (ds.mapM fun d => info? d.name) :=
    .mapM (fun d => does_info? d.name) ds
  refine hinfos.bind fun infos => ?_
  refine Does.bind (J := fun _ _ => True) ?_ fun _ => .pure fun _ _ => trivial
  exact does_globals.bind fun _ => .pure fun _ _ => trivial

theorem run_openFile (s : Session) :
    (openFile fs file).run s =
      match (loadFile fs file).run s with
      | (.ok _, s') =>
        match s'.graph.find? fun m => m.file.any fun p =>
            p.resolve == (Path.ofString file).resolve with
        | some m => (.ok m, s')
        | none => (.error .notInGraph, s')
      | (.error f, s') => (.error (loadError f), s') := by
  rw [openFile, run_bind, run_adapt]
  rcases (loadFile fs file).run s with ⟨r, s'⟩
  cases r with
  | error f => rfl
  | ok u =>
    show (match s'.graph.find? _ with | some m => pure m | none => throw .notInGraph : QueryM _) s'
      = _
    dsimp only
    cases s'.graph.find? _ <;> rfl

theorem run_ask {α : Type} (answer : Summary → SessionM α) (s : Session) :
    (ask fs file answer).run s =
      match (openFile fs file).run s with
      | (.ok m, s') => (((answer m).run s').1.mapError .ofFailure, ((answer m).run s').2)
      | (.error f, s') => (.error f, s') := by
  rw [ask, run_bind]
  rcases (openFile fs file).run s with ⟨r, s'⟩
  cases r <;> rfl

theorem of_loadError {f g : Failure} (h : loadError g = .other f) : g = f ∧ ∀ ds, f ≠ .source ds := by
  cases g <;> cases h <;> exact ⟨rfl, fun _ h => nomatch h⟩

theorem of_ofFailure {f g : Failure} (h : QueryError.ofFailure g = .other f) :
    g = f ∧ ∀ ds, f ≠ .source ds := by
  cases g <;> cases h <;> exact ⟨rfl, fun _ h => nomatch h⟩

/-- A question can fail in another way than by its source only if its work can. -/
theorem cause_of_ask {α : Type} {answer : Summary → SessionM α} {s : Session} {f : Failure}
    (hanswer : ∀ m, IsRead fs s.config m →
      Does fs s.config file (fun _ => True) (fun _ _ => True) (answer m))
    (h : ((ask fs file answer).run s).1 = .error (.other f)) : Cause fs s.config file f := by
  have hload := does_loadFile fs file s rfl trivial
  rw [run_ask, run_openFile] at h
  rcases hr : (loadFile fs file).run s with ⟨r, s'⟩
  rw [hr] at h hload
  cases r with
  | error g =>
    obtain ⟨rfl, hsource⟩ := of_loadError (Except.error.inj h)
    exact hload.2.of_error.resolve_left fun ⟨ds, hds⟩ => hsource ds hds
  | ok u =>
    cases hfind : s'.graph.find? fun m => m.file.any fun p =>
        p.resolve == (Path.ofString file).resolve with
    | none =>
      simp only [hfind] at h
      cases h
    | some m =>
      simp only [hfind] at h
      have hread : IsRead fs s.config m := by
        obtain ⟨l, hl, rfl⟩ := List.mem_map.mp (List.mem_of_find?_eq_some hfind)
        exact hload.2.of_ok l hl
      have hends := (hanswer m hread s' hload.1 trivial).2
      cases ha : ((answer m).run s').1 with
      | ok a => simp [ha, Except.mapError] at h
      | error g =>
        rw [ha] at h hends
        obtain ⟨rfl, hsource⟩ := of_ofFailure (Except.error.inj h)
        exact hends.of_error.resolve_left fun ⟨ds, hds⟩ => hsource ds hds

-- Failures that no question survives

theorem build_of_parseFile {p : Path} {f : Failure} (hfile : fs.isFile p = .ok true)
    (hparse : Surface.parseFile fs c.tabWidth p.render = .error f) :
    build fs c [.file p] = .error f := by
  have hserve (s : Scan) : serve fs c s ⟨p, none, .unknown⟩ = .error f := by
    rw [serve, hfile, hparse]
    rfl
  have hscan : scan fs c [.file p] = .error f := by
    show rounds fs c (fs.length + 1) {} [⟨p, none, .unknown⟩] = .error f
    rw [rounds, if_neg (by simp), serveAll, hserve]
    rfl
  rw [build, hscan]
  rfl

theorem run_loadFile_of_build {s : Session} {t : Target} {f : Failure}
    (ht : guessTarget fs file = .ok t) (hbuild : build fs s.config [t] = .error f)
    (hf : ∀ ds, f ≠ .source ds) : ((loadFile fs file).run s).1 = .error f := by
  have htargets (u : Session) (hc : u.config = s.config) (hu : u.targets = [t]) :
      ((loadTargets fs).run u).1 = .error f := by
    have : (loadTargets fs).run u = ((ofExcept (build fs u.config u.targets) >>= checkAll :
        SessionM Unit).run { u with loaded := [] }) := rfl
    rw [this, hc, hu, hbuild]
    rfl
  have hload (u : Session) (hc : u.config = s.config) (hu : u.targets = [t]) :
      ((load fs).run u).1 = .error f := by
    have := htargets u hc hu
    rw [load, run_bind, run_tryCatch]
    rcases hr : (loadTargets fs).run u with ⟨r, u'⟩
    rw [hr] at this
    obtain rfl : r = .error f := this
    cases f with
    | source ds => exact absurd rfl (hf ds)
    | _ => rfl
  rw [loadFile, ht]
  exact hload { s with targets := [t] } rfl rfl

theorem run_ask_of_loadFile {α : Type} {answer : Summary → SessionM α} {s : Session} {f : Failure}
    (h : ((loadFile fs file).run s).1 = .error f) (hf : ∀ ds, f ≠ .source ds) :
    ((ask fs file answer).run s).1 = .error (.other f) := by
  rw [run_ask, run_openFile]
  rcases hr : (loadFile fs file).run s with ⟨r, s'⟩
  rw [hr] at h
  obtain rfl : r = .error f := h
  cases f with
  | source ds => exact absurd rfl (hf ds)
  | _ => rfl

/-- A question can raise only for one of the causes; and when the source of its own file cannot be
read for another reason than what it says, then it does raise, whatever the session. -/
theorem raises_for_cause (fs : Files) (s : Session) (file : String) :
    (∀ p f, ((types fs file (.ofPoint p)).run s).1 = .error (.other f) →
        Cause fs s.config file f) ∧
      (∀ text f, ((info fs file (some text)).run s).1 = .error (.other f) →
        Cause fs s.config file f) ∧
      ∀ path f, guessTarget fs file = .ok (.file path) → fs.isFile path = .ok true →
        Surface.parseFile fs s.config.tabWidth path.render = .error f → (∀ ds, f ≠ .source ds) →
          (∀ p, ((types fs file p).run s).1 = .error (.other f)) ∧
            ∀ text, ((info fs file text).run s).1 = .error (.other f) := by
  refine ⟨fun p f => cause_of_ask fun m hm => ?_, fun text f => cause_of_ask fun m hm => ?_,
    fun path f ht hfile hparse hf => ?_⟩
  · refine (does_parseModule hm).bind fun parsed => ?_
    refine ((does_check (P := fun _ => True) parsed.source).mono (fun _ _ => trivial) fun _ _ _ =>
      trivial).bind fun checked => ?_
    exact does_typesAt m checked p
  · exact (does_setContext m.module).bind fun _ => does_describe text
  · have hload := run_loadFile_of_build (s := s) ht (build_of_parseFile hfile hparse) hf
    exact ⟨fun p => run_ask_of_loadFile hload hf, fun text => run_ask_of_loadFile hload hf⟩

-- A string that is not text

/-- A module with a string whose one byte is no text in UTF-8. -/
def badString : Files :=
  [(⟨0, ["M.hs"]⟩, .file ("x = \"\\xff\"".toList.map fun c => c.toNat.toUInt8))]

theorem guessTarget_badString : guessTarget badString "M.hs" = .ok (.file ⟨0, ["M.hs"]⟩) := by
  decide +kernel

theorem isFile_badString : badString.isFile ⟨0, ["M.hs"]⟩ = .ok true := by decide +kernel

theorem parseFile_badString :
    Surface.parseFile badString (some 8) (Path.render ⟨0, ["M.hs"]⟩) =
      .error (.badString (.notUtf8 .invalidStart)) :=
  Surface.fault?_eq_some_iff.mp (by decide +kernel)

/-- No new session has an answer for that module. -/
theorem raises_on_badString :
    (¬ ∀ fs s file p f, ((types fs file (.ofPoint p)).run s).1 ≠ .error (.other f)) ∧
      ¬ ∀ fs s file text f, ((info fs file (some text)).run s).1 ≠ .error (.other f) := by
  have hload := run_loadFile_of_build (s := { config := {} }) guessTarget_badString
    (build_of_parseFile isFile_badString parseFile_badString) fun _ h => nomatch h
  exact ⟨fun h => h _ _ _ ⟨1, 1⟩ _ (run_ask_of_loadFile hload fun _ h => nomatch h),
    fun h => h _ _ _ "x" _ (run_ask_of_loadFile hload fun _ h => nomatch h)⟩

theorem raises_for_badString :
    (∀ p, ((types badString "M.hs" p).run { config := {} }).1 =
        .error (.other (.badString (.notUtf8 .invalidStart)))) ∧
      Cause badString {} "M.hs" (.badString (.notUtf8 .invalidStart)) := by
  obtain ⟨hcause, -, hraises⟩ := raises_for_cause badString { config := {} } "M.hs"
  have htypes := (hraises _ _ guessTarget_badString isFile_badString parseFile_badString
    fun _ h => nomatch h).1
  exact ⟨htypes, hcause ⟨1, 1⟩ _ (htypes _)⟩

end Session

end TypeLens
