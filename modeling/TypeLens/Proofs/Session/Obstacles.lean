import TypeLens.Proofs.Files.Names
import TypeLens.Proofs.Surface.Literals
import TypeLens.Session.ModuleGraph

/-!
How finding the modules of targets can fail though the source is not at fault: by a literal without
a value in a file that is read, by a name that cannot be looked up, or by a tab width by which
nothing can be measured.
-/

namespace TypeLens

/-- If the work fails though the source is not at fault, then as `P` says; a result is as `Q` says. -/
inductive Ends {α : Type} (P : Failure → Prop) (Q : α → Prop) : Except Failure α → Prop
  | ok {a : α} (h : Q a) : Ends P Q (.ok a)
  | error {f : Failure} (h : (∃ ds, f = .source ds) ∨ P f) : Ends P Q (.error f)

namespace Ends

variable {α β : Type} {P : Failure → Prop} {Q Q' : α → Prop} {R : β → Prop}
  {x : Except Failure α} {f : Failure}

theorem of_ok {a : α} (h : Ends P Q (.ok a)) : Q a := by
  cases h
  assumption

theorem of_error (h : Ends P Q (.error f)) : (∃ ds, f = .source ds) ∨ P f := by
  cases h
  assumption

theorem source {ds : List Diagnostic} : Ends P Q (.error (.source ds)) := .error (.inl ⟨ds, rfl⟩)

theorem bind {k : α → Except Failure β} (hx : Ends P Q x) (hk : ∀ a, Q a → Ends P R (k a)) :
    Ends P R (x >>= k) := by
  cases hx with
  | ok h => exact hk _ h
  | error h => exact .error h

theorem mono (hx : Ends P Q x) (h : ∀ a, Q a → Q' a) : Ends P Q' x := by
  cases hx with
  | ok ha => exact .ok (h _ ha)
  | error hf => exact .error hf

/-- A result is what the work gives. -/
theorem self (h : ∀ f, x = .error f → (∃ ds, f = .source ds) ∨ P f) :
    Ends P (fun a => x = .ok a) x := by
  cases x with
  | ok a => exact .ok rfl
  | error f => exact .error (h f rfl)

end Ends

namespace ModuleGraph

section Obstacles

variable (fs : Files) (c : Config) (targets : List Target)

/-- The file in which the module of a target is looked for. -/
def targetFile : Target → Except Failure (Option Path)
  | .file p => .ok (some p)
  | .module m => findModule fs c m none
  | .nothing => findModule fs c "None" none

/-- The files that are read for targets: their own, and those of the modules that they import. -/
inductive Opened : Path → Prop
  | target {t : Target} {p : Path} (ht : t ∈ targets) (hp : targetFile fs c t = .ok (some p)) :
      Opened p
  | imported {p q : Path} {m : Surface.Module} {i : Surface.ImportDecl} (h : Opened p)
      (hm : Surface.parseFile fs c.tabWidth p.render = .ok m) (hi : i ∈ m.imports)
      (hq : findModule fs c i.module (some p) = .ok (some q)) : Opened q

/-- Why the modules of targets may not be found though the source is not at fault. -/
inductive Obstacle : Failure → Prop
  /-- A literal has no value in a file that is read. -/
  | literal {p : Path} {source : String} {g : Surface.Fault} (h : Opened fs c targets p)
      (hs : Surface.readSource fs p.render = .ok source) (hg : g ∈ Surface.textFaults source) :
      Obstacle g.failure
  /-- Nothing can be measured with the tab width. -/
  | tabWidth (hw : c.tabWidth = none) : Obstacle (.missing .tabWidth)
  | unmeasurable {w : Int} (hw : c.tabWidth = some w) (h : Layout.isMeasurable w = false) :
      Obstacle .tabWidthOutOfRange
  /-- It cannot be told whether there is a file. -/
  | name {p : Path} {f : Failure} (h : Opened fs c targets p) (hf : fs.isFile p = .error f) :
      Obstacle f
  /-- The module of a target, or one that is imported, cannot be looked for. -/
  | target {t : Target} {f : Failure} (ht : t ∈ targets) (hf : targetFile fs c t = .error f) :
      Obstacle f
  | imported {p : Path} {m : Surface.Module} {i : Surface.ImportDecl} {f : Failure}
      (h : Opened fs c targets p) (hm : Surface.parseFile fs c.tabWidth p.render = .ok m)
      (hi : i ∈ m.imports) (hf : findModule fs c i.module (some p) = .error f) : Obstacle f

end Obstacles

variable {fs : Files} {c : Config} {targets : List Target} {s : Scan}

theorem ends_parseFile {p : Path} (h : Opened fs c targets p) (hp : fs.isFile p = .ok true) :
    Ends (Obstacle fs c targets) (fun m => Surface.parseFile fs c.tabWidth p.render = .ok m)
      (Surface.parseFile fs c.tabWidth p.render) := by
  refine .self fun f hm => ?_
  unfold Surface.parseFile at hm
  cases hs : Surface.readSource fs p.render with
  | error g =>
    rw [hs] at hm
    cases hm
    unfold Surface.readSource at hs
    split at hs
    · next hz => exact absurd hz (Files.read_ne_zeroInName hp)
    · cases hs
      exact .inl ⟨_, rfl⟩
    · split at hs
      · cases hs
        exact .inl ⟨_, rfl⟩
      · cases hs
  | ok source =>
    rw [hs] at hm
    cases hw : c.tabWidth with
    | none =>
      rw [hw] at hm
      cases hm
      exact .inr (.tabWidth hw)
    | some w =>
      rw [hw] at hm
      rcases Surface.parseModule_eq_error hm with h' | ⟨rfl, hw'⟩ | ⟨g, hg, rfl⟩
      · exact .inl h'
      · exact .inr (.unmeasurable hw hw')
      · exact .inr (.literal h hs hg)

/-- The requests are for files that belong to the targets. -/
def Opens (fs : Files) (c : Config) (targets : List Target) (x : Scan × List Request) : Prop :=
  ∀ r ∈ x.2, Opened fs c targets r.path

theorem ends_requestModule {module : String} {expected : Option String} {near : Option Path}
    {loc : Span} (hfail : ∀ f, findModule fs c module near = .error f → Obstacle fs c targets f)
    (hopen : ∀ p, findModule fs c module near = .ok (some p) → Opened fs c targets p) :
    Ends (Obstacle fs c targets) (Opens fs c targets)
      (requestModule fs c s module expected near loc) := by
  refine (Ends.self fun f hf => .inr (hfail f hf)).bind fun r hr => ?_
  cases r with
  | none => exact .ok fun _ h => absurd h List.not_mem_nil
  | some p => exact .ok (List.forall_mem_singleton.2 (hopen p hr))

theorem ends_requestTarget {t : Target} (ht : t ∈ targets) :
    Ends (Obstacle fs c targets) (Opens fs c targets) (requestTarget fs c s t) := by
  cases t with
  | file p => exact .ok (List.forall_mem_singleton.2 (.target ht rfl))
  | module m => exact ends_requestModule (fun _ => .target ht) fun _ => .target ht
  | nothing => exact ends_requestModule (fun _ => .target ht) fun _ => .target ht

theorem ends_requestTargets {ts : List Target} (hts : ts ⊆ targets) :
    Ends (Obstacle fs c targets) (Opens fs c targets) (requestTargets fs c s ts) := by
  induction ts generalizing s with
  | nil => exact .ok fun _ h => absurd h List.not_mem_nil
  | cons t ts ih =>
    obtain ⟨ht, hts⟩ := List.cons_subset.1 hts
    refine (ends_requestTarget ht).bind fun r hr => (ih hts).bind fun r' hr' => ?_
    exact .ok (List.forall_mem_append.2 ⟨hr, hr'⟩)

theorem ends_requestImports {near : Path} {m : Surface.Module} (hnear : Opened fs c targets near)
    (hm : Surface.parseFile fs c.tabWidth near.render = .ok m) {is : List Surface.ImportDecl}
    (his : is ⊆ m.imports) :
    Ends (Obstacle fs c targets) (Opens fs c targets) (requestImports fs c near s is) := by
  induction is generalizing s with
  | nil => exact .ok fun _ h => absurd h List.not_mem_nil
  | cons i is ih =>
    obtain ⟨hi, his⟩ := List.cons_subset.1 his
    rw [requestImports]
    split
    · exact ih his
    · refine (ends_requestModule (fun _ => .imported hnear hm hi) fun _ =>
        .imported hnear hm hi).bind fun r hr => (ih his).bind fun r' hr' => ?_
      exact .ok (List.forall_mem_append.2 ⟨hr, hr'⟩)

theorem ends_serve {r : Request} (hr : Opened fs c targets r.path) :
    Ends (Obstacle fs c targets) (Opens fs c targets) (serve fs c s r) := by
  have hnone (s : Scan) : Opens fs c targets (s, []) := fun _ h => absurd h List.not_mem_nil
  refine (Ends.self fun f hf => .inr (.name hr hf)).bind fun b hb => ?_
  cases b with
  | false => exact .ok (hnone _)
  | true =>
    rw [if_pos rfl]
    refine (ends_parseFile hr hb).bind fun m hm => ?_
    unfold addModule
    split
    · exact .ok (hnone _)
    · split
      · split <;> exact .ok (hnone _)
      · exact ends_requestImports hr hm (List.Subset.refl _)

theorem ends_serveAll {rs : List Request} (hrs : ∀ r ∈ rs, Opened fs c targets r.path) :
    Ends (Obstacle fs c targets) (Opens fs c targets) (serveAll fs c s rs) := by
  induction rs generalizing s with
  | nil => exact .ok fun _ h => absurd h List.not_mem_nil
  | cons r rs ih =>
    obtain ⟨hr, hrs⟩ := List.forall_mem_cons.1 hrs
    refine (ends_serve hr).bind fun x hx => (ih hrs).bind fun y hy => ?_
    exact .ok (List.forall_mem_append.2 ⟨hx, hy⟩)

theorem ends_rounds (n : Nat) {rs : List Request} (hrs : ∀ r ∈ rs, Opened fs c targets r.path) :
    Ends (Obstacle fs c targets) (fun _ => True) (rounds fs c n s rs) := by
  induction n generalizing s rs with
  | zero => exact .ok trivial
  | succ n ih =>
    rw [rounds]
    split
    · exact .ok trivial
    · exact (ends_serveAll hrs).bind fun r hr => ih hr

variable (fs c targets) in
theorem ends_build : Ends (Obstacle fs c targets) (fun _ => True) (build fs c targets) := by
  have hscan : Ends (Obstacle fs c targets) (fun _ => True) (scan fs c targets) :=
    (ends_requestTargets (List.Subset.refl _)).bind fun r hr => ends_rounds _ hr
  refine hscan.bind fun s _ => ?_
  split
  · exact .ok trivial
  · exact .source

end ModuleGraph

end TypeLens
