import Mathlib.Data.List.Forall2
import TypeLens.Proofs.Session.History

/-!
What loading leaves. Modules are checked in the order of their graph, each against what the modules
before it export, so that what has been loaded when the work ends or stops is the beginning of a
graph. Nothing else that can be done in a session changes that.
-/

namespace TypeLens.Session

open ModuleGraph (Found build)

-- Work that reads

/-- Nothing of the session changes, but the bundled module may have been read. -/
def OnlyReads {ε α : Type} (x : ExceptT ε (StateM Session) α) : Prop :=
  ∀ s, ∃ k, (x.run s).2 = { s with kept := k }

namespace OnlyReads

variable {ε ε' α β : Type} {x : ExceptT ε (StateM Session) α}

protected theorem pure (a : α) : OnlyReads (pure a : ExceptT ε (StateM Session) α) :=
  fun s => ⟨s.kept, rfl⟩

theorem throw (e : ε) : OnlyReads (throw e : ExceptT ε (StateM Session) α) := fun s => ⟨s.kept, rfl⟩

theorem ofExcept (r : Except ε α) : OnlyReads (ofExcept r : ExceptT ε (StateM Session) α) := by
  cases r with
  | ok a => exact .pure a
  | error e => exact .throw e

theorem bind {k : α → ExceptT ε (StateM Session) β} (hx : OnlyReads x)
    (hk : ∀ a, OnlyReads (k a)) : OnlyReads (x >>= k) := by
  intro s
  obtain ⟨kept, hs⟩ := hx s
  rw [run_bind]
  rcases hr : x.run s with ⟨r, s'⟩
  rw [hr] at hs
  obtain rfl : s' = { s with kept } := hs
  cases r with
  | error e => exact ⟨kept, rfl⟩
  | ok a => exact hk a { s with kept }

theorem getBind {k : Session → ExceptT ε (StateM Session) α} (hk : ∀ s, OnlyReads (k s)) :
    OnlyReads (get >>= k) := fun s => hk s s

theorem mapM {f : β → ExceptT ε (StateM Session) α} (hf : ∀ b, OnlyReads (f b)) (bs : List β) :
    OnlyReads (bs.mapM f) := by
  induction bs with
  | nil => rw [List.mapM_nil]; exact .pure []
  | cons b bs ih =>
    rw [List.mapM_cons]
    exact (hf b).bind fun a => ih.bind fun as => .pure (a :: as)

end OnlyReads

theorem onlyReads_readBundled : OnlyReads readBundled := by
  refine .getBind fun s => (OnlyReads.ofExcept _).bind fun m => OnlyReads.bind ?_ fun _ => .pure m
  exact fun s => ⟨some m, rfl⟩

theorem onlyReads_exportsOf (module : String) : OnlyReads (exportsOf module) := by
  rw [exportsOf]
  split
  · exact onlyReads_readBundled.bind fun _ => .pure _
  · refine .getBind fun s => ?_
    cases s.checked? module with
    | some m => exact .pure _
    | none => exact .throw _

theorem onlyReads_check (m : Surface.Module) : OnlyReads (check m) :=
  .getBind fun _ => (OnlyReads.mapM onlyReads_exportsOf _).bind fun _ => .ofExcept _

theorem onlyReads_globals : OnlyReads globals := by
  refine .getBind fun s => ?_
  split
  · exact .pure _
  · exact onlyReads_readBundled.bind fun _ => .pure _

theorem onlyReads_parseName (text : String) : OnlyReads (parseName text) := by
  refine (OnlyReads.ofExcept _).bind fun q => onlyReads_globals.bind fun g => ?_
  dsimp only
  split
  · exact (OnlyReads.throw _).bind fun _ => .pure _
  · exact .pure _

theorem onlyReads_owner? (module : String) : OnlyReads (owner? module) := by
  rw [owner?]
  split
  · exact onlyReads_readBundled.bind fun _ => .pure _
  · exact .getBind fun _ => .pure _

theorem onlyReads_info? (n : Name) : OnlyReads (info? n) := by
  refine (onlyReads_owner? n.module).bind fun owner => ?_
  split
  · exact .pure _
  · exact onlyReads_globals.bind fun _ => .pure _

theorem onlyReads_describe (text : String) : OnlyReads (describe text) := by
  refine (onlyReads_parseName text).bind fun ds => ?_
  refine (OnlyReads.mapM (fun d : Declared => onlyReads_info? d.name) ds).bind fun infos => ?_
  exact (onlyReads_globals.bind fun _ => .pure _).bind fun _ => .pure _

theorem onlyReads_parseModule (fs : Files) (m : Summary) : OnlyReads (parseModule fs m) := by
  rw [parseModule]
  split
  · exact .getBind fun _ => (OnlyReads.ofExcept _).bind fun _ => .pure _
  · exact .throw _

theorem onlyReads_typesAt (m : Summary) (checked : Checked) (p : Point) :
    OnlyReads (typesAt m checked p) := by
  rw [typesAt]
  dsimp only
  split
  · exact onlyReads_readBundled.bind fun _ => .getBind fun _ => .pure _
  · exact .getBind fun _ => .pure _

-- Checking modules in order

variable {c : Config} {s t : Session} {loaded : List Loaded} {found : List Found}

/-- What a module name in an import stands for, where these modules are loaded. -/
def Exported (c : Config) (loaded : List Loaded) (n : String) (x : Exports) : Prop :=
  if n = preludeModule then ∃ k, Prelude.read c.tabWidth = .ok k ∧ k.exports = x
  else ∃ k, lookup? loaded n = some k ∧ k.exports = x

/-- The modules were checked one after the other, each against what it imports of those before. -/
inductive Loads (c : Config) : List Found → List Loaded → Prop
  | nil : Loads c [] []
  | snoc {found : List Found} {loaded : List Loaded} {f : Found} {xs : List Exports}
      {checked : Checked} (h : Loads c found loaded)
      (hxs : List.Forall₂ (Exported c loaded) (importNames c f.source) xs)
      (hchecked : Check.module f.source xs = .ok checked) :
      Loads c (found ++ [f]) (loaded ++ [⟨f.summary, checked⟩])

theorem Loads.summaries (h : Loads c found loaded) :
    loaded.map (·.summary) = found.map (·.summary) := by
  induction h with
  | nil => rfl
  | snoc _ _ _ ih => rw [List.map_append, List.map_append, ih]; rfl

theorem run_readBundled (s : Session) :
    readBundled.run s =
      match s.bundled with
      | .ok k => (.ok k, { s with kept := some k })
      | .error e => (.error e, s) := by
  show ((ofExcept s.bundled >>= fun k => do
    modify ({ · with kept := some k })
    return k : SessionM Checked)).run s = _
  cases s.bundled <;> rfl

theorem run_exportsOf {n : String} (hn : n ≠ preludeModule) (s : Session) :
    (exportsOf n).run s =
      ((s.checked? n).elim (.error (notLoaded n .loader)) fun k => .ok k.exports, s) := by
  rw [exportsOf, if_neg hn, run_get_bind]
  cases s.checked? n <;> rfl

theorem exported_of_run {n : String} {x : Exports} (hs : Sound c s)
    (h : ((exportsOf n).run s).1 = .ok x) : Exported c s.loaded n x := by
  unfold Exported
  split
  · next hn =>
    rw [exportsOf, if_pos hn, run_bind, run_readBundled, hs.bundled] at h
    cases hread : Prelude.read c.tabWidth with
    | error e => rw [hread] at h; cases h
    | ok k =>
      rw [hread] at h
      cases h
      exact ⟨k, rfl, rfl⟩
  · next hn =>
    rw [run_exportsOf hn] at h
    cases hk : s.checked? n with
    | none => rw [hk] at h; cases h
    | some k =>
      rw [hk] at h
      cases h
      exact ⟨k, hk, rfl⟩

theorem forall₂_exported {ns : List String} {xs : List Exports} (hs : Sound c s)
    (h : ((ns.mapM exportsOf).run s).1 = .ok xs) :
    List.Forall₂ (Exported c s.loaded) ns xs := by
  induction ns generalizing s xs with
  | nil => cases h; exact .nil
  | cons n ns ih =>
    rw [List.mapM_cons, run_bind] at h
    have hsound : Sound c ((exportsOf n).run s).2 := (agrees_exportsOf n).sound hs rfl
    obtain ⟨k, hk⟩ := onlyReads_exportsOf n s
    have hx (x : Exports) (h : ((exportsOf n).run s).1 = .ok x) := exported_of_run hs h
    rcases hr : (exportsOf n).run s with ⟨r, s'⟩
    rw [hr] at h hk hsound hx
    obtain rfl : s' = { s with kept := k } := hk
    cases r with
    | error e => cases h
    | ok x =>
      dsimp only at h
      rw [run_bind] at h
      have hrest (ys : List Exports)
          (h : ((ns.mapM exportsOf).run { s with kept := k }).1 = .ok ys) := ih hsound h
      rcases hrs : (ns.mapM exportsOf).run { s with kept := k } with ⟨rs, s''⟩
      rw [hrs] at h hrest
      cases rs with
      | error e => cases h
      | ok xs' =>
        cases h
        exact .cons (hx x rfl) (hrest xs' rfl)

theorem checked_of_run {m : Surface.Module} {checked : Checked} (hs : Sound c s)
    (h : ((check m).run s).1 = .ok checked) :
    ∃ xs, List.Forall₂ (Exported c s.loaded) (importNames c m) xs ∧
      Check.module m xs = .ok checked := by
  replace h : (((importNames s.config m).mapM exportsOf >>= fun xs =>
    ofExcept (Check.module m xs)).run s).1 = .ok checked := h
  rw [hs.config, run_bind] at h
  have hxs (xs : List Exports) (h : (((importNames c m).mapM exportsOf).run s).1 = .ok xs) :=
    forall₂_exported hs h
  rcases hr : ((importNames c m).mapM exportsOf).run s with ⟨r, s'⟩
  rw [hr] at h hxs
  cases r with
  | error e => cases h
  | ok xs =>
    refine ⟨xs, hxs xs rfl, ?_⟩
    dsimp only at h
    cases hm : Check.module m xs with
    | error e => rw [hm] at h; cases h
    | ok k => rw [hm] at h; cases h; rfl

theorem run_checkAll_cons (f : Found) (fs : List Found) (s : Session) :
    (checkAll (f :: fs)).run s =
      match (check f.source).run s with
      | (.ok k, t) => (checkAll fs).run { t with loaded := t.loaded ++ [⟨f.summary, k⟩] }
      | (.error e, t) => (.error e, t) := by
  rw [checkAll, run_bind]
  rcases (check f.source).run s with ⟨r, t⟩
  cases r <;> rfl

/-- Checking goes on from what is loaded, up to some module, which is the last one if all goes
well. -/
theorem loads_checkAll (hs : Sound c s) (h : Loads c found s.loaded) (todo : List Found) :
    ∃ now later, todo = now ++ later ∧
      Loads c (found ++ now) ((checkAll todo).run s).2.loaded ∧
      (((checkAll todo).run s).1 = .ok () → later = []) := by
  induction todo generalizing s found with
  | nil => exact ⟨[], [], rfl, by rwa [List.append_nil], fun _ => rfl⟩
  | cons f fs ih =>
    rw [run_checkAll_cons]
    have hsound : Sound c ((check f.source).run s).2 := (agrees_check f.source).sound hs rfl
    obtain ⟨k, hk⟩ := onlyReads_check f.source s
    have hchecked (k : Checked) (h : ((check f.source).run s).1 = .ok k) := checked_of_run hs h
    rcases hr : (check f.source).run s with ⟨r, t⟩
    rw [hr] at hk hsound hchecked
    obtain rfl : t = { s with kept := k } := hk
    cases r with
    | error e =>
      exact ⟨[], f :: fs, rfl, by rwa [List.append_nil], fun h => nomatch h⟩
    | ok checked =>
      obtain ⟨xs, hxs, hm⟩ := hchecked checked rfl
      have hnext : Sound c { s with kept := k, loaded := s.loaded ++ [⟨f.summary, checked⟩] } :=
        ⟨hsound.config, hsound.kept⟩
      obtain ⟨now, later, hsplit, hloads, hall⟩ := ih hnext (.snoc h hxs hm)
      refine ⟨f :: now, later, by rw [hsplit]; rfl, ?_, hall⟩
      rwa [List.append_assoc] at hloads

/-- What is loaded is the beginning of the graph of some targets, checked in order. -/
def FromGraph (c : Config) (loaded : List Loaded) : Prop :=
  ∃ fs targets found rest, build fs c targets = .ok (found ++ rest) ∧ Loads c found loaded

theorem fromGraph_nil : FromGraph c [] := ⟨[], [], [], [], rfl, .nil⟩

theorem run_loadTargets (fs : Files) (s : Session) :
    (loadTargets fs).run s =
      match build fs s.config s.targets with
      | .ok found => (checkAll found).run { s with loaded := [] }
      | .error e => (.error e, { s with loaded := [] }) := by
  show ((ofExcept (build fs s.config s.targets) >>= checkAll : SessionM Unit)).run
    { s with loaded := [] } = _
  cases build fs s.config s.targets <;> rfl

theorem run_load (fs : Files) (s : Session) :
    (load fs).run s =
      match (loadTargets fs).run s with
      | (.ok (), t) => (.ok (), { t with context := chooseContext t.context t.loaded })
      | (.error (.source ds), t) => (.error (.source ds), { t with loaded := [] })
      | (.error e, t) => (.error e, t) := by
  rw [load, run_bind, run_tryCatch]
  rcases (loadTargets fs).run s with ⟨r, t⟩
  cases r with
  | ok u => rfl
  | error e => cases e <;> rfl

theorem fromGraph_loadTargets (fs : Files) (hs : Sound c s) :
    FromGraph c ((loadTargets fs).run s).2.loaded := by
  rw [run_loadTargets]
  cases hbuild : build fs s.config s.targets with
  | error e => exact fromGraph_nil
  | ok found =>
    have hclear : Sound c { s with loaded := [] } := ⟨hs.config, hs.kept⟩
    obtain ⟨now, later, rfl, hloads, -⟩ := loads_checkAll hclear .nil found
    exact ⟨fs, s.targets, now, later, hs.config ▸ hbuild, hloads⟩

theorem fromGraph_load (fs : Files) (hs : Sound c s) : FromGraph c ((load fs).run s).2.loaded := by
  have h := fromGraph_loadTargets fs hs
  rw [run_load]
  rcases hr : (loadTargets fs).run s with ⟨r, t⟩
  rw [hr] at h
  cases r with
  | ok u => exact h
  | error e =>
    cases e with
    | source ds => exact fromGraph_nil
    | _ => exact h

theorem fromGraph_loadFile (fs : Files) (file : String) (hs : Sound c s)
    (h : FromGraph c s.loaded) : FromGraph c ((loadFile fs file).run s).2.loaded := by
  rw [loadFile, run_bind]
  cases guessTarget fs file with
  | error e => exact h
  | ok target => exact fromGraph_load fs (s := { s with targets := [target] }) ⟨hs.config, hs.kept⟩

/-- After a question is loaded what was loaded for it. -/
theorem run_ask_loaded {α : Type} {answer : Summary → SessionM α} (fs : Files) (file : String)
    (hanswer : ∀ m, ∀ s, ((answer m).run s).2.loaded = s.loaded) (s : Session) :
    ((ask fs file answer).run s).2.loaded = ((loadFile fs file).run s).2.loaded := by
  have hopen : ((openFile fs file).run s).2 = ((loadFile fs file).run s).2 := by
    rw [openFile, run_bind, run_adapt]
    rcases (loadFile fs file).run s with ⟨r, t⟩
    cases r with
    | error e => rfl
    | ok u =>
      show ((get >>= _ : QueryM Summary).run t).2 = t
      rw [run_get_bind]
      cases t.graph.find? _ <;> rfl
  rw [← hopen, ask, run_bind]
  rcases (openFile fs file).run s with ⟨r, t⟩
  cases r with
  | error e => rfl
  | ok m => exact hanswer m t

theorem OnlyReads.run_loaded {ε α : Type} {x : ExceptT ε (StateM Session) α} (hx : OnlyReads x)
    (s : Session) : (x.run s).2.loaded = s.loaded := by
  obtain ⟨k, hk⟩ := hx s
  rw [hk]

theorem setContext_loaded (module : String) (s : Session) :
    ((setContext module).run s).2.loaded = s.loaded := by
  show ((if (s.checked? module).isSome then modify ({ · with context := some module })
    else throw (notLoaded module .interactive) : SessionM Unit).run s).2.loaded = _
  split <;> rfl

theorem FromGraph.after (fs : Files) (hs : Sound c s) (h : FromGraph c s.loaded) (op : Operation) :
    FromGraph c (s.after fs op).loaded := by
  cases op with
  | setTargets targets => exact h
  | load => exact fromGraph_load fs hs
  | setContext module => exact (setContext_loaded module s).symm ▸ h
  | parseName text => exact ((onlyReads_parseName text).run_loaded s).symm ▸ h
  | parseModule m => exact ((onlyReads_parseModule fs m).run_loaded s).symm ▸ h
  | check m => exact ((onlyReads_check m).run_loaded s).symm ▸ h
  | entity? n =>
    have hreads : OnlyReads (entity? n) := (onlyReads_owner? n.module).bind fun _ => .pure _
    exact (hreads.run_loaded s).symm ▸ h
  | info? n => exact ((onlyReads_info? n).run_loaded s).symm ▸ h
  | info file text =>
    show FromGraph c ((ask fs file _).run s).2.loaded
    rw [run_ask_loaded fs file (fun m s => ?_) s]
    · exact fromGraph_loadFile fs file hs h
    · rw [run_bind]
      have hset := setContext_loaded m.module s
      rcases hr : (setContext m.module).run s with ⟨r, t⟩
      rw [hr] at hset
      cases r with
      | error e => exact hset
      | ok u =>
        cases text with
        | none => exact hset
        | some text => exact ((onlyReads_describe text).run_loaded t).trans hset
  | types file p =>
    have hanswer (m : Summary) (s : Session) : ((do
        let parsed ← parseModule fs m
        let k ← check parsed.source
        typesAt m k (← ofExcept (p.resolve (Typed.searched k.binds))) :
        SessionM (List (Extent × String))).run s).2.loaded = s.loaded := by
      refine OnlyReads.run_loaded ?_ s
      exact (onlyReads_parseModule fs m).bind fun parsed => (onlyReads_check parsed.source).bind
        fun k => (OnlyReads.ofExcept _).bind fun q => onlyReads_typesAt m k q
    exact (run_ask_loaded fs file hanswer s).symm ▸ fromGraph_loadFile fs file hs h

theorem Reachable.fromGraph (h : Reachable c s) : FromGraph c s.loaded := by
  induction h with
  | new => exact fromGraph_nil
  | after fs op h ih => exact ih.after fs h.sound op

end TypeLens.Session
