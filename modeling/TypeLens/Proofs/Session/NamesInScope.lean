import TypeLens.Proofs.Checking.Legibility
import TypeLens.Proofs.Files.Names
import TypeLens.Proofs.Session.Descriptions
import TypeLens.Proofs.Surface.NameQueries

/-!
Every name in scope can be asked for. The modules of a session are read from texts, so that all
names in their scopes are spelled as tokens are, and the text of such a name finds what has this
spelling.
-/

namespace TypeLens

theorem Prelude.legible_checked : Prelude.checked.Legible := by
  refine Check.legible_run ?_ fun _ h => absurd h List.not_mem_nil
  show ∀ k ∈ tree.introduced, Declarable k.1 k.2
  rw [tree]
  cases hparsed : parsed with
  | error e => exact List.forall_mem_nil _
  | ok m => exact Surface.declarable_of_parseModule hparsed

namespace Session

open ModuleGraph (Found)

variable {c : Config} {s : Session} {loaded : List Loaded} {g : Globals}

theorem declarable_of_exported (h : ∀ l ∈ loaded, l.checked.Legible) {m : String} {x : Exports}
    (hx : Exported c loaded m x) : x.Declarable := by
  unfold Exported at hx
  split at hx
  · obtain ⟨k, hk, rfl⟩ := hx
    rw [Prelude.checked_of_read hk]
    exact Prelude.legible_checked.exports
  · obtain ⟨k, hk, rfl⟩ := hx
    obtain ⟨l, hl, -, rfl⟩ := mem_of_lookup? hk
    exact (h l hl).exports

theorem Loads.legible {found : List Found} (h : Loads c found loaded)
    (hread : ∀ f ∈ found, ∀ k ∈ f.source.introduced, Declarable k.1 k.2) :
    ∀ l ∈ loaded, l.checked.Legible := by
  induction h with
  | nil => exact fun _ h => absurd h List.not_mem_nil
  | @snoc found loaded f xs checked _ hxs hchecked ih =>
    obtain ⟨hbefore, hf⟩ := List.forall_mem_append.1 hread
    have hloaded := ih hbefore
    refine List.forall_mem_append.2 ⟨hloaded, List.forall_mem_singleton.2 ?_⟩
    show checked.Legible
    rw [Check.eq_of_module_eq_ok hchecked]
    refine Check.legible_run (hf f (List.mem_singleton_self f)) fun x hx => ?_
    obtain ⟨m, hm⟩ := exists_of_forall₂ hxs x hx
    exact declarable_of_exported hloaded hm

theorem FromGraph.legible (h : FromGraph c loaded) : ∀ l ∈ loaded, l.checked.Legible := by
  obtain ⟨fs, targets, found, rest, hbuild, hloads⟩ := h
  refine hloads.legible fun f hf => ?_
  obtain ⟨p, -, hp⟩ := (ModuleGraph.isRead_of_build hbuild f (List.mem_append_left _ hf)).source
  obtain ⟨w, source, hsource⟩ := Surface.exists_source_of_parseFile hp
  exact Surface.declarable_of_parseModule hsource

theorem legible_of_inScope (hs : Sound c s) (hgraph : FromGraph c s.loaded) (h : InScope s g) :
    g.scope.Legible := by
  cases h with
  | context hm hk =>
    obtain ⟨l, hl, -, rfl⟩ := mem_of_lookup? hk
    exact (hgraph.legible l hl).scope
  | bundled hnone hk =>
    rw [hs.bundled] at hk
    rw [Prelude.checked_of_read hk]
    exact Prelude.legible_checked.scope

/-- What a spelling means in a scope: a constructor can be a type and a value, a variable is a value
only. -/
def meanings (scope : Scope) (occ : String) : List Declared :=
  (if isConstructorLike occ then scope.under .type occ else []) ++ scope.under .value occ

theorem namesOf_eq (h : g.scope.Legible) {q : NameQuery} {occ : String} (hq : q.Means occ) :
    namesOf g q = meanings g.scope occ := by
  obtain ⟨loc, rfl⟩ := hq
  rw [meanings]
  split
  · exact congrArg₂ (· ++ ·) (h.lookup_eq _ _) (h.lookup_eq _ _)
  · exact h.lookup_eq _ _

/-- No name is left out by its namespace: what is no constructor is no type. -/
theorem mem_meanings {scope : Scope} (h : scope.Legible) {occ : String} {x : Declared} :
    x ∈ meanings scope occ ↔ x ∈ scope.names ∧ x.name.occ = occ := by
  rw [meanings, List.mem_append, Scope.mem_under]
  constructor
  · rintro (hx | ⟨hx, -, hocc⟩)
    · split at hx
      · obtain ⟨hx, -, hocc⟩ := Scope.mem_under.1 hx
        exact ⟨hx, hocc⟩
      · cases hx
    · exact ⟨hx, hocc⟩
  · rintro ⟨hx, rfl⟩
    cases hspace : x.name.space with
    | value => exact .inr ⟨hx, rfl, rfl⟩
    | type =>
      have hlike := (hspace ▸ h.declarable_of_mem hx).isConstructorLike
      rw [if_pos hlike]
      exact .inl (Scope.mem_under.2 ⟨hx, hspace, rfl⟩)

theorem run_parseName {text : String} {q : NameQuery} (hq : NameQuery.parse text = .ok q)
    (hscope : InScope s g) (hne : namesOf g q ≠ []) :
    ((parseName text).run s).1 = .ok (namesOf g q) := by
  rw [parseName, hq]
  show ((globals >>= _ : SessionM (List Declared)).run s).1 = _
  have hglobals := run_globals hscope
  rw [run_bind]
  rcases hg : globals.run s with ⟨r, u⟩
  rw [hg] at hglobals
  obtain rfl : r = .ok g := hglobals
  have hsome : (namesOf g q).isEmpty = false := by simpa using hne
  simp only [hsome]
  rfl

/-- A name in scope, written as it is before arguments and with blanks around it, is read as all
that its spelling means, itself among it. -/
theorem parseName_renderPrefixed (h : Reachable c s) (hscope : InScope s g) {d : Declared}
    (hd : d ∈ g.scope.names) {before after : List Char}
    (hbefore : ∀ c ∈ before, Text.isBlank c = true)
    (hafter : ∀ c ∈ after, Text.isBlank c = true) :
    let text := String.ofList before ++ d.name.renderPrefixed .never ++ String.ofList after
    let ds := meanings g.scope d.name.occ
    ((parseName text).run s).1 = .ok ds ∧
      (∀ x, x ∈ ds ↔ x ∈ g.scope.names ∧ x.name.occ = d.name.occ) ∧ d ∈ ds := by
  intro text ds
  have hlegible := legible_of_inScope h.sound h.fromGraph hscope
  have hmem : d ∈ ds := (mem_meanings hlegible).2 ⟨hd, rfl⟩
  obtain ⟨q, hq, hmeans⟩ :=
    (NameQuery.reads_renderPrefixed (hlegible.declarable_of_mem hd)).parse_eq hbefore hafter
  have hnames : namesOf g q = ds := namesOf_eq hlegible hmeans
  have hrun := run_parseName hq hscope (hnames ▸ List.ne_nil_of_mem hmem)
  exact ⟨hrun.trans (congrArg _ hnames), fun x => mem_meanings hlegible, hmem⟩

/-- A module with the name of the bundled one, so that lists belong to it, and with operators that
look like constructors and like comments. -/
def operators : Files :=
  let text := "module Prelude\ndata T = C\nprimitive (:+), (+--) :: T -> T -> T"
  [(⟨0, ["P.hs"]⟩, .file (text.toList.map fun c => c.toNat.toUInt8))]

/-- A session after this module was loaded. -/
def withOperators : Session :=
  (Session.after [] { config := {} } (.setTargets [.file ⟨0, ["P.hs"]⟩])).after operators .load

theorem parseName_renderPrefixed_operators :
    Reachable {} withOperators ∧ ∃ g, InScope withOperators g ∧
      g.scope.names.map (·.name.occ) = ["[]", "[]", ":", "T", "C", ":+", "+--"] ∧
      ∀ d ∈ g.scope.names,
        ((parseName (" " ++ d.name.renderPrefixed .never ++ "\n")).run withOperators).1 =
          .ok (meanings g.scope d.name.occ) ∧ d ∈ meanings g.scope d.name.occ := by
  have hreachable : Reachable {} withOperators := (Reachable.new.after [] _).after operators .load
  have hnames : (globals.run withOperators).1.toOption.map (·.scope.names.map (·.name.occ)) =
      some ["[]", "[]", ":", "T", "C", ":+", "+--"] := by decide +kernel
  obtain ⟨g, hg, hoccs⟩ := Option.map_eq_some_iff.1 hnames
  have hscope : InScope withOperators g := by
    cases hrun : (globals.run withOperators).1 with
    | error e => rw [hrun] at hg; cases hg
    | ok g' =>
      rw [hrun] at hg
      exact inScope_of_run (hrun.trans (congrArg Except.ok (Option.some.inj hg)))
  have hblank : ∀ c ∈ [' '], Text.isBlank c = true := List.forall_mem_singleton.2 rfl
  have hbreak : ∀ c ∈ ['\n'], Text.isBlank c = true := List.forall_mem_singleton.2 rfl
  refine ⟨hreachable, g, hscope, hoccs, fun d hd => ?_⟩
  obtain ⟨hrun, -, hmem⟩ := parseName_renderPrefixed hreachable hscope hd hblank hbreak
  exact ⟨hrun, hmem⟩

end Session

end TypeLens
