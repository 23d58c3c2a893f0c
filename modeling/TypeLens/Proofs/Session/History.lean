import TypeLens.Session.Query

/-!
What a session has been through does not matter for the answers that it gives. A question sets the
targets and loads them anew, so that only the configuration and the bundled module are left of the
session before it, and the bundled module is what the configuration makes of it. Failures keep the
state that they are met in.
-/

namespace TypeLens.Session

section Runs

variable {ε ε' σ α β : Type} (x : ExceptT ε (StateM σ) α) (s : σ)

theorem run_bind (k : α → ExceptT ε (StateM σ) β) :
    (x >>= k).run s =
      match x.run s with
      | (.ok a, s') => (k a).run s'
      | (.error e, s') => (.error e, s') := by
  show (ExceptT.bindCont k (x.run s).1).run (x.run s).2 = _
  rcases x.run s with ⟨r, s'⟩
  cases r <;> rfl

theorem run_get_bind (k : σ → ExceptT ε (StateM σ) α) : (get >>= k).run s = (k s).run s := rfl

theorem run_tryCatch (handle : ε → ExceptT ε (StateM σ) α) :
    (tryCatch x handle).run s =
      match x.run s with
      | (.ok a, s') => (.ok a, s')
      | (.error e, s') => (handle e).run s' := by
  simp only [tryCatch, tryCatchThe, MonadExceptOf.tryCatch, ExceptT.tryCatch, ExceptT.run,
    ExceptT.mk, bind, StateT.bind]
  rcases x s with ⟨r, s'⟩
  cases r <;> rfl

theorem run_adapt (f : ε → ε') :
    (x.adapt f).run s = ((x.run s).1.mapError f, (x.run s).2) := rfl

end Runs

variable {c : Config} {s t : Session}

/-- The configuration is that one, and a bundled module that is kept is the one that would be
read. -/
structure Sound (c : Config) (s : Session) : Prop where
  config : s.config = c
  kept : ∀ m ∈ s.kept, Prelude.read c.tabWidth = .ok m

theorem Sound.bundled (h : Sound c s) : s.bundled = Prelude.read c.tabWidth := by
  rw [Session.bundled]
  cases hk : s.kept with
  | some m => exact (h.kept m hk).symm
  | none => rw [h.config]

-- Two runs of the same work

/-- From two sessions that `P` relates, the work ends in the same way; if it has a result, then `Q`
relates the sessions after it. -/
def Agrees {ε α : Type} (c : Config) (P Q : Session → Session → Prop)
    (x : ExceptT ε (StateM Session) α) : Prop :=
  ∀ s t, Sound c s → Sound c t → P s t →
    (x.run s).1 = (x.run t).1 ∧ Sound c (x.run s).2 ∧ Sound c (x.run t).2 ∧
      (∀ a, (x.run s).1 = .ok a → Q (x.run s).2 (x.run t).2)

namespace Agrees

variable {ε ε' α β : Type} {P Q R : Session → Session → Prop}
  {x : ExceptT ε (StateM Session) α}

protected theorem pure (a : α) : Agrees c P P (pure a : ExceptT ε (StateM Session) α) :=
  fun _ _ hs ht h => ⟨rfl, hs, ht, fun _ _ => h⟩

theorem throw (e : ε) : Agrees c P Q (throw e : ExceptT ε (StateM Session) α) :=
  fun _ _ hs ht _ => ⟨rfl, hs, ht, fun _ ha => nomatch ha⟩

theorem throwBind (e : ε) (k : β → ExceptT ε (StateM Session) α) :
    Agrees c P Q (MonadExcept.throw e >>= k) :=
  fun _ _ hs ht _ => ⟨rfl, hs, ht, fun _ ha => nomatch ha⟩

theorem ofExcept (r : Except ε α) :
    Agrees c P P (ofExcept r : ExceptT ε (StateM Session) α) := by
  cases r with
  | ok a => exact .pure a
  | error e => exact .throw e

theorem bind {k : α → ExceptT ε (StateM Session) β} (hx : Agrees c P Q x)
    (hk : ∀ a, Agrees c Q R (k a)) : Agrees c P R (x >>= k) := by
  intro s t hs ht h
  obtain ⟨heq, hs', ht', hq⟩ := hx s t hs ht h
  rw [run_bind, run_bind]
  rcases hrs : x.run s with ⟨r, s'⟩
  rcases hrt : x.run t with ⟨r', t'⟩
  rw [hrs] at heq hs' hq
  rw [hrt] at heq ht' hq
  obtain rfl : r = r' := heq
  cases r with
  | error e => exact ⟨rfl, hs', ht', fun _ ha => nomatch ha⟩
  | ok a => exact hk a s' t' hs' ht' (hq a rfl)

/-- Work that looks at the session must not see where two sessions differ. -/
theorem getBind {k : Session → ExceptT ε (StateM Session) α}
    (hk : ∀ s, Sound c s → Agrees c P Q (k s))
    (hsame : ∀ s t, Sound c s → Sound c t → P s t → k s = k t) :
    Agrees c P Q (get >>= k) := by
  intro s t hs ht h
  have := hk s hs s t hs ht h
  rwa [show (get >>= k).run t = (k s).run t by rw [hsame s t hs ht h]; rfl]

theorem modify {u : Session → Session} (hsound : ∀ s, Sound c s → Sound c (u s))
    (hrel : ∀ s t, P s t → Q (u s) (u t)) :
    Agrees c P Q (modify u : ExceptT ε (StateM Session) Unit) :=
  fun s t hs ht h => ⟨rfl, hsound s hs, hsound t ht, fun _ _ => hrel s t h⟩

theorem adapt {f : ε → ε'} (hx : Agrees c P Q x) : Agrees c P Q (x.adapt f) := by
  intro s t hs ht h
  obtain ⟨heq, hs', ht', hq⟩ := hx s t hs ht h
  rw [run_adapt, run_adapt]
  refine ⟨by rw [heq], hs', ht', fun a ha => ?_⟩
  cases hr : (x.run s).1 with
  | error e =>
    rw [hr] at ha
    cases ha
  | ok b => exact hq b hr

/-- After a failure that is dealt with, the sessions need not be related. -/
theorem tryCatch {handle : ε → ExceptT ε (StateM Session) α} (hx : Agrees c P Q x)
    (hhandle : ∀ e, Agrees c (fun _ _ => True) Q (handle e)) :
    Agrees c P Q (tryCatch x handle) := by
  intro s t hs ht h
  obtain ⟨heq, hs', ht', hq⟩ := hx s t hs ht h
  rw [run_tryCatch, run_tryCatch]
  rcases hrs : x.run s with ⟨r, s'⟩
  rcases hrt : x.run t with ⟨r', t'⟩
  rw [hrs] at heq hs' hq
  rw [hrt] at heq ht' hq
  obtain rfl : r = r' := heq
  cases r with
  | ok a => exact ⟨rfl, hs', ht', hq⟩
  | error e => exact hhandle e s' t' hs' ht' trivial

theorem mapM {f : β → ExceptT ε (StateM Session) α} (hf : ∀ b, Agrees c P P (f b))
    (bs : List β) : Agrees c P P (bs.mapM f) := by
  induction bs with
  | nil => rw [List.mapM_nil]; exact .pure []
  | cons b bs ih =>
    rw [List.mapM_cons]
    exact (hf b).bind fun a => ih.bind fun as => .pure (a :: as)

theorem mono {P' Q' : Session → Session → Prop} (hx : Agrees c P Q x)
    (hP : ∀ s t, P' s t → P s t) (hQ : ∀ s t, Q s t → Q' s t) : Agrees c P' Q' x := by
  intro s t hs ht h
  obtain ⟨heq, hs', ht', hq⟩ := hx s t hs ht (hP s t h)
  exact ⟨heq, hs', ht', fun a ha => hQ _ _ (hq a ha)⟩

end Agrees

-- What two sessions can have in common

def SameTargets (s t : Session) : Prop := s.targets = t.targets

def SameLoaded (s t : Session) : Prop := s.loaded = t.loaded

def SameScope (s t : Session) : Prop := s.loaded = t.loaded ∧ s.context = t.context

/-- The bundled module may have been read in one of the sessions only. -/
def IgnoresKept (P : Session → Session → Prop) : Prop :=
  ∀ s t k l, P s t → P { s with kept := k } { t with kept := l }

theorem ignoresKept_sameLoaded : IgnoresKept SameLoaded := fun _ _ _ _ h => h

theorem ignoresKept_sameScope : IgnoresKept SameScope := fun _ _ _ _ h => h

variable {P : Session → Session → Prop}

theorem agrees_readBundled (hP : IgnoresKept P) : Agrees c P P readBundled := by
  refine .getBind (fun s hs => ?_) fun s t hs ht _ => by rw [hs.bundled, ht.bundled]
  rw [hs.bundled]
  cases hread : Prelude.read c.tabWidth with
  | error e => exact .throwBind e _
  | ok m =>
    have hkeep : Agrees c P P (modify ({ · with kept := some m }) : SessionM Unit) :=
      .modify (fun s hs => ⟨hs.config, by rintro _ ⟨⟩; exact hread⟩) fun s t h => hP s t _ _ h
    rw [show ofExcept (.ok m) = (pure m : SessionM Checked) from rfl, pure_bind]
    exact hkeep.bind fun _ => .pure m

theorem agrees_setTargets (targets : List Target) :
    Agrees c P SameTargets (setTargets targets) :=
  .modify (fun _ hs => ⟨hs.config, hs.kept⟩) fun _ _ _ => rfl

theorem agrees_exportsOf (module : String) : Agrees c SameLoaded SameLoaded (exportsOf module) := by
  rw [exportsOf]
  split
  · exact (agrees_readBundled ignoresKept_sameLoaded).bind fun _ => .pure _
  · refine .getBind (fun s _ => ?_) fun s t _ _ h => by rw [checked?, h, ← checked?]
    cases s.checked? module with
    | some m => exact .pure _
    | none => exact .throw _

theorem agrees_check (m : Surface.Module) : Agrees c SameLoaded SameLoaded (check m) := by
  refine .getBind (fun s _ => ?_) fun s t hs ht _ => by rw [hs.config, ht.config]
  exact (Agrees.mapM agrees_exportsOf _).bind fun _ => .ofExcept _

theorem agrees_checkAll (fs : List ModuleGraph.Found) :
    Agrees c SameLoaded SameLoaded (checkAll fs) := by
  induction fs with
  | nil => exact .pure ()
  | cons f fs ih =>
    refine (agrees_check f.source).bind fun m => ?_
    refine Agrees.bind ?_ fun _ => ih
    exact .modify (fun _ hs => ⟨hs.config, hs.kept⟩) fun s t h => by rw [SameLoaded, h]

theorem agrees_clear {Q : Session → Session → Prop}
    (h : ∀ s t, P s t → Q { s with loaded := [] } { t with loaded := [] }) :
    Agrees c P Q (modify ({ · with loaded := [] }) : SessionM Unit) :=
  .modify (fun _ hs => ⟨hs.config, hs.kept⟩) h

/-- Nothing of what was loaded before is left. -/
theorem agrees_loadTargets (fs : Files) : Agrees c SameTargets SameLoaded (loadTargets fs) := by
  have hclear : Agrees c SameTargets (fun s t => SameTargets s t ∧ SameLoaded s t)
      (modify ({ · with loaded := [] }) : SessionM Unit) :=
    agrees_clear fun _ _ h => ⟨h, rfl⟩
  refine hclear.bind fun _ => .getBind (fun s _ => ?_) fun s t hs ht h => by
    rw [hs.config, ht.config, h.1]
  refine (Agrees.ofExcept _).bind fun found => ?_
  exact (agrees_checkAll found).mono (fun _ _ h => h.2) fun _ _ h => h

theorem agrees_load (fs : Files) : Agrees c SameTargets SameLoaded (load fs) := by
  refine Agrees.bind (.tryCatch (agrees_loadTargets fs) fun e => ?_) fun _ =>
    .modify (fun _ hs => ⟨hs.config, hs.kept⟩) fun s t h => h
  cases e with
  | source ds => exact (agrees_clear (Q := SameLoaded) fun _ _ _ => rfl).bind fun _ => .throw _
  | _ => exact .throw _

theorem agrees_loadFile (fs : Files) (file : String) :
    Agrees c (fun _ _ => True) SameLoaded (loadFile fs file) :=
  (Agrees.ofExcept _).bind fun target => (agrees_setTargets [target]).bind fun _ => agrees_load fs

theorem agrees_openFile (fs : Files) (file : String) :
    Agrees c (fun _ _ => True) SameLoaded (openFile fs file) := by
  refine (agrees_loadFile fs file).adapt.bind fun _ => ?_
  refine .getBind (fun s _ => ?_) fun s t _ _ h => by rw [graph, h, ← graph]
  split
  · exact .pure _
  · exact .throw _

theorem agrees_ask {α : Type} {Q : Session → Session → Prop} (fs : Files) (file : String)
    {answer : Summary → SessionM α} (h : ∀ m, Agrees c SameLoaded Q (answer m)) :
    Agrees c (fun _ _ => True) Q (ask fs file answer) :=
  (agrees_openFile fs file).bind fun m => (h m).adapt

theorem agrees_setContext (module : String) :
    Agrees c SameLoaded SameScope (setContext module) := by
  refine .getBind (fun s _ => ?_) fun s t _ _ h => by rw [checked?, h, ← checked?]
  split
  · exact .modify (fun _ hs => ⟨hs.config, hs.kept⟩) fun _ _ h => ⟨h, rfl⟩
  · exact .throw _

theorem agrees_globals : Agrees c SameScope SameScope globals := by
  refine .getBind (fun s _ => ?_) fun s t _ _ h => ?_
  · split
    · exact .pure _
    · exact (agrees_readBundled ignoresKept_sameScope).bind fun _ => .pure _
  · have hsame : s.checked? = t.checked? := by funext m; rw [checked?, h.1, ← checked?]
    rw [hsame, h.2]

theorem agrees_parseName (text : String) : Agrees c SameScope SameScope (parseName text) := by
  refine (Agrees.ofExcept _).bind fun q => agrees_globals.bind fun g => ?_
  dsimp only
  split
  · exact .throwBind _ _
  · exact .pure _

theorem agrees_owner? (module : String) : Agrees c SameScope SameScope (owner? module) := by
  rw [owner?]
  split
  · exact (agrees_readBundled ignoresKept_sameScope).bind fun _ => .pure _
  · exact .getBind (fun s _ => Agrees.pure ((s.checked? module).map fun m => m.globals))
      fun s t _ _ h => by rw [checked?, h.1, ← checked?]

theorem agrees_entity? (n : Name) : Agrees c SameScope SameScope (entity? n) :=
  (agrees_owner? n.module).bind fun _ => .pure _

theorem agrees_info? (n : Name) : Agrees c SameScope SameScope (info? n) := by
  refine (agrees_owner? n.module).bind fun owner => ?_
  split
  · exact .pure _
  · exact agrees_globals.bind fun _ => .pure _

theorem agrees_policy : Agrees c SameScope SameScope policy :=
  agrees_globals.bind fun g => .pure g.scope.policy

theorem agrees_describe (text : String) : Agrees c SameScope SameScope (describe text) := by
  refine (agrees_parseName text).bind fun ds => ?_
  have hinfos : Agrees c SameScope SameScope (ds.mapM fun d => info? d.name) :=
    .mapM (fun d => agrees_info? d.name) ds
  refine hinfos.bind fun infos => ?_
  exact agrees_policy.bind fun _ => .pure _

theorem agrees_info (fs : Files) (file : String) (text : Option String) :
    Agrees c (fun _ _ => True) SameScope (info fs file text) := by
  refine agrees_ask fs file fun m => (agrees_setContext m.module).bind fun _ => ?_
  cases text with
  | some text => exact agrees_describe text
  | none => exact .throw _

theorem agrees_parseModule (fs : Files) (m : Summary) :
    Agrees c P P (parseModule fs m) := by
  rw [parseModule]
  split
  · exact .getBind (fun _ _ => (Agrees.ofExcept _).bind fun _ => .pure _) fun s t hs ht _ => by
      rw [hs.config, ht.config]
  · exact .throw _

theorem agrees_typesAt (m : Summary) (checked : Checked) (p : Point) :
    Agrees c SameLoaded SameLoaded (typesAt m checked p) := by
  have hanswer : Agrees c SameLoaded SameLoaded (do
      let s ← get
      return Fragment.order (fragmentsOf (s.coreContext m.module checked.globals)
        (Typed.search checked.binds p)) : SessionM (List (Extent × String))) :=
    .getBind (fun _ _ => .pure _) fun s t hs ht h => by
      have hsame : s.checked? = t.checked? := by funext m; rw [checked?, h, ← checked?]
      rw [coreContext, coreContext, hs.bundled, ht.bundled, hsame]
  rw [typesAt]
  dsimp only
  split
  · exact (agrees_readBundled ignoresKept_sameLoaded).bind fun _ => hanswer
  · exact hanswer

theorem agrees_types (fs : Files) (file : String) (p : PartialPoint) :
    Agrees c (fun _ _ => True) SameLoaded (types fs file p) :=
  agrees_ask fs file fun m => (agrees_parseModule fs m).bind fun parsed =>
    (agrees_check parsed.source).bind fun checked => (Agrees.ofExcept _).bind fun q =>
      agrees_typesAt m checked q

-- Histories

/-- What can be asked of a session. -/
inductive Operation
  | setTargets (targets : List Target)
  | load
  | setContext (module : String)
  | parseName (text : String)
  | parseModule (m : Summary)
  | check (m : Surface.Module)
  | entity? (n : Name)
  | info? (n : Name)
  | info (file : String) (text : Option String)
  | types (file : String) (p : PartialPoint)

/-- The session after an operation, whether that succeeds or not. -/
def after (fs : Files) (s : Session) : Operation → Session
  | .setTargets targets => ((Session.setTargets targets).run s).2
  | .load => ((Session.load fs).run s).2
  | .setContext module => ((Session.setContext module).run s).2
  | .parseName text => ((Session.parseName text).run s).2
  | .parseModule m => ((Session.parseModule fs m).run s).2
  | .check m => ((Session.check m).run s).2
  | .entity? n => ((Session.entity? n).run s).2
  | .info? n => ((Session.info? n).run s).2
  | .info file text => ((Session.info fs file text).run s).2
  | .types file p => ((Session.types fs file p).run s).2

/-- Sessions that a new one can become. The files can be others at each operation. -/
inductive Reachable (c : Config) : Session → Prop
  | new : Reachable c { config := c }
  | after (fs : Files) {s : Session} (op : Operation) (h : Reachable c s) :
      Reachable c (s.after fs op)

theorem Agrees.sound {ε α : Type} {P Q : Session → Session → Prop}
    {x : ExceptT ε (StateM Session) α} (hx : Agrees c P Q x) (hs : Sound c s) (h : P s s) :
    Sound c (x.run s).2 :=
  (hx s s hs hs h).2.1

theorem Sound.after (fs : Files) (h : Sound c s) (op : Operation) : Sound c (s.after fs op) := by
  cases op with
  | setTargets targets => exact (agrees_setTargets (P := Eq) targets).sound h rfl
  | load => exact (agrees_load fs).sound h rfl
  | setContext module => exact (agrees_setContext module).sound h rfl
  | parseName text => exact (agrees_parseName text).sound h ⟨rfl, rfl⟩
  | parseModule m => exact (agrees_parseModule (P := Eq) fs m).sound h rfl
  | check m => exact (agrees_check m).sound h rfl
  | entity? n => exact (agrees_entity? n).sound h ⟨rfl, rfl⟩
  | info? n => exact (agrees_info? n).sound h ⟨rfl, rfl⟩
  | info file text => exact (agrees_info fs file text).sound h trivial
  | types file p => exact (agrees_types fs file p).sound h trivial

theorem Reachable.sound (h : Reachable c s) : Sound c s := by
  induction h with
  | new => exact ⟨rfl, fun _ hm => nomatch hm⟩
  | after fs op _ ih => exact ih.after fs op

/-- Two sessions with one configuration answer alike, and print alike, however they came about. -/
theorem answers_agree (hs : Reachable c s) (ht : Reachable c t) (fs : Files) (file : String) :
    (∀ p, ((types fs file p).run s).1 = ((types fs file p).run t).1) ∧
      ∀ text, ((info fs file text).run s).1 = ((info fs file text).run t).1 :=
  ⟨fun p => (agrees_types fs file p s t hs.sound ht.sound trivial).1,
    fun text => (agrees_info fs file text s t hs.sound ht.sound trivial).1⟩

/-- A session after a load that failed, against a new one. -/
theorem answers_agree_after_failure :
    let s : Session := ((Session.after [] { config := {} } (.setTargets [.nothing])).after [] .load)
    ((types [] "M.hs" ⟨some 1, some 1⟩).run s).1 =
        ((types [] "M.hs" ⟨some 1, some 1⟩).run { config := {} }).1 ∧
      ((info [] "M.hs" (some "f")).run s).1 = ((info [] "M.hs" (some "f")).run { config := {} }).1 :=
  have hs := (Reachable.new (c := {})).after [] (.setTargets [.nothing]) |>.after [] .load
  have h := answers_agree hs .new [] "M.hs"
  ⟨h.1 _, h.2 _⟩

end TypeLens.Session
