import TypeLens.Proofs.Checking.Changes

/-!
Where names come from that are in scope of a module. They are the module's own or made known by what
it imports, and once the module is accepted all of them denote something. What a module makes known
is its own.
-/

namespace TypeLens

theorem Table.contains_of_mem {κ α : Type} [DecidableEq κ] {t : Table κ α} {p : κ × α}
    (h : p ∈ t) : t.contains p.1 = true :=
  Option.isSome_iff_ne_none.2 fun hn => Table.get?_eq_none_iff.1 hn (List.mem_map_of_mem h)

/-- What is exported stands under its name. -/
structure Exports.Rooted (x : Exports) : Prop where
  entities : ∀ p ∈ x.entities, p.1 = p.2.name ∧ p.2.Rooted
  instances : ∀ i ∈ x.instances, ¬ i.name.IsLocal

theorem Exports.Rooted.named {x : Exports} (hx : x.Rooted) : x.Named :=
  ⟨fun p hp => (hx.entities p hp).2.named, hx.instances⟩

theorem Exports.Rooted.addEntity {x : Exports} (hx : x.Rooted) {e : Entity} (he : e.Rooted) :
    (x.addEntity e).Rooted :=
  ⟨Table.forall_mem_put hx.entities ⟨rfl, he⟩, hx.instances⟩

/-- Names in scope have a source, and types and classes among them denote something. -/
structure Globals.Sourced (source : Name → Prop) (g : Globals) : Prop where
  scope : ∀ space occ, ∀ x ∈ g.scope.lookup space occ, x.name.space = space ∧ source x.name
  types : ∀ occ, ∀ x ∈ g.scope.lookup .type occ, (g.entity? x.name).isSome
  entities : ∀ p ∈ g.entities, p.2.Rooted

namespace Globals.Sourced

variable {source : Name → Prop} {g g' : Globals} {e : Entity}

/-- A name may come into scope together with what it denotes. -/
theorem extend (hg : g.Sourced source) (hentities : g'.entities = g.entities.put e.name e)
    (hscope : ∀ space occ, ∀ x ∈ g'.scope.lookup space occ,
      x ∈ g.scope.lookup space occ ∨ x.name = e.name ∧ e.name.space = space)
    (he : e.Rooted) (hsource : source e.name) : g'.Sourced source where
  scope space occ x hx := by
    rcases hscope space occ x hx with hx | ⟨hname, hspace⟩
    · exact hg.scope space occ x hx
    · rw [hname]
      exact ⟨hspace, hsource⟩
  types occ x hx := by
    rw [entity?, hentities]
    refine Table.contains_put.2 ?_
    rcases hscope .type occ x hx with hx | ⟨hname, -⟩
    · exact .inr (hg.types occ x hx)
    · exact .inl hname.symm
  entities := by
    rw [hentities]
    exact Table.forall_mem_put hg.entities he

theorem addEntity (hg : g.Sourced source) (he : e.Rooted) (hsource : source e.name) :
    (g.addEntity e).Sourced source := by
  refine hg.extend rfl (fun space occ x hx => ?_) he hsource
  exact (Scope.mem_lookup_add hx).imp_right fun h => by rw [h.1]; exact ⟨rfl, h.2.1⟩

/-- A value may come into scope before it denotes anything. -/
theorem addValue (hg : g.Sourced source) {d : Declared} (hspace : d.name.space = .value)
    (hsource : source d.name) : { g with scope := g.scope.add d }.Sourced source where
  scope space occ x hx := by
    rcases Scope.mem_lookup_add hx with hx | ⟨rfl, hd, -⟩
    · exact hg.scope space occ x hx
    · exact ⟨hd, hsource⟩
  types occ x hx := by
    rcases Scope.mem_lookup_add hx with hx | ⟨rfl, hd, -⟩
    · exact hg.types occ x hx
    · rw [hspace] at hd
      cases hd
  entities := hg.entities

end Globals.Sourced

namespace Check

/-- The name is that of the module or one that an import makes known. -/
def Source (module : String) (imports : List Exports) (n : Name) : Prop :=
  n.module = module ∨ ∃ x ∈ imports, x.entities.contains n = true

/-- What a module declares has a source, and what it exports is its own. -/
structure Declaring.Sourced (m : Surface.Module) (imports : List Exports) (d : Declaring) :
    Prop where
  globals : d.globals.Sourced (Source m.name imports)
  exports : d.exports.Rooted
  own : ∀ p ∈ d.exports.entities, p.1.module = m.name ∧ (d.globals.entity? p.1).isSome

variable {m : Surface.Module} {imports : List Exports} {d : Declaring}

/-- An entity of the module is added to what is known and to what is exported. -/
theorem Declaring.Sourced.addEntity (hd : d.Sourced m imports) {e : Entity} (he : e.Rooted)
    (hmodule : e.name.module = m.name) {d' : Declaring}
    (hglobals : d'.globals.Sourced (Source m.name imports))
    (hentities : d'.globals.entities = d.globals.entities.put e.name e)
    (hexports : d'.exports = d.exports.addEntity e) : d'.Sourced m imports where
  globals := hglobals
  exports := hexports ▸ hd.exports.addEntity he
  own := by
    rw [hexports]
    refine Table.forall_mem_put (fun p hp => ?_) ⟨hmodule, ?_⟩
    · rw [Globals.entity?, hentities]
      exact ⟨(hd.own p hp).1, Table.contains_put.2 (.inr (hd.own p hp).2)⟩
    · rw [Globals.entity?, hentities]
      exact Table.contains_put.2 (.inl rfl)

theorem inductive_sourced : Inductive m true (·.Sourced m imports) := by
  intro d d' h hd
  have hadd {e : Entity} (he : e.Rooted) (hmodule : e.name.module = m.name) :
      (d.globals.addEntity e).Sourced (Source m.name imports) :=
    hd.globals.addEntity he (.inl hmodule)
  cases h with
  | report => exact ⟨hd.globals, hd.exports, hd.own⟩
  | fixity =>
    exact ⟨⟨hd.globals.scope, hd.globals.types, hd.globals.entities⟩,
      ⟨hd.exports.entities, hd.exports.instances⟩, hd.own⟩
  | wireIn he hm =>
    have hmodule : ∀ e ∈ Declare.listEntities, e.name.module = preludeModule := by decide
    have hmodule := (hmodule _ he).trans hm.symm
    have he := rooted_listEntities _ he
    exact hd.addEntity he hmodule (hadd he hmodule) rfl rfl
  | @declare _ space occ e hname he hplace =>
    have hmodule : e.name.module = m.name := by rw [hname]; rfl
    refine hd.addEntity he hmodule (hd.globals.extend rfl (fun space occ x hx => ?_) he
      (.inl hmodule)) rfl rfl
    rcases Scope.mem_lookup_add hx with hx | ⟨rfl, hspace, -⟩
    · exact (Scope.mem_lookup_add hx).imp_right fun h => by rw [h.1]; exact ⟨rfl, h.2.1⟩
    · exact .inr ⟨rfl, hspace⟩
  | @complete _ occ e hname he =>
    have hmodule : e.name.module = m.name := by rw [hname]; rfl
    exact hd.addEntity he hmodule (hadd he hmodule) rfl rfl
  | bind hb hy hplace => exact ⟨hd.globals.addValue rfl (.inl rfl), hd.exports, hd.own⟩
  | @sign _ occ s loc | identify occ s loc =>
    have he : (Entity.ident ⟨topName m.name .value occ, loc, s, none⟩).Rooted :=
      rooted_of_ident rfl rfl
    exact hd.addEntity he rfl (hadd he rfl) rfl rfl
  | inst hname hfind =>
    refine ⟨⟨hd.globals.scope, hd.globals.types, hd.globals.entities⟩, ⟨hd.exports.entities, ?_⟩,
      hd.own⟩
    refine List.forall_mem_append.2 ⟨hd.exports.instances, List.forall_mem_singleton.2 ?_⟩
    rw [hname]
    exact not_isLocal_topName

theorem sourced_initial (hi : ∀ x ∈ imports, x.Rooted) :
    (Declaring.initial m imports).Sourced m imports := by
  have hglobals : (Declaring.initial m imports).globals.Sourced (Source m.name imports) := by
    refine initial_of_imported (fun x hx e he g hg => ?_)
      (fun _ _ _ _ _ hg => ⟨hg.scope, hg.types, hg.entities⟩)
      (fun _ _ hg => ⟨hg.scope, hg.types, hg.entities⟩)
      ⟨fun _ _ _ h => absurd h List.not_mem_nil, fun _ _ h => absurd h List.not_mem_nil,
        fun _ h => absurd h List.not_mem_nil⟩
    obtain ⟨p, hp, rfl⟩ := List.mem_map.1 he
    obtain ⟨hname, hrooted⟩ := (hi x hx).entities p hp
    refine hg.addEntity hrooted (.inr ⟨x, hx, ?_⟩)
    rw [← hname]
    exact Table.contains_of_mem hp
  exact ⟨hglobals, ⟨fun _ h => absurd h List.not_mem_nil, fun _ h => absurd h List.not_mem_nil⟩,
    fun _ h => absurd h List.not_mem_nil⟩

theorem sourced_elaborate (hi : ∀ x ∈ imports, x.Rooted) :
    (elaborate m imports).declared.Keyed m ∧ (elaborate m imports).declared.Sourced m imports :=
  elaborated_of_inductive inductive_sourced (sourced_initial hi)

end Check

/-- Names in scope of a module have a source, entities have the names that they stand under, and what
is exported is the module's own. -/
structure Checked.Sourced (module : String) (imports : List Exports) (k : Checked) : Prop where
  globals : k.globals.Sourced (Check.Source module imports)
  keyed : ∀ p ∈ k.globals.entities, p.1 = p.2.name
  exports : k.exports.Rooted
  own : ∀ p ∈ k.exports.entities, p.1.module = module ∧ (k.globals.entity? p.1).isSome

namespace Check

/-- That is so whether or not the module is accepted. -/
theorem sourced_run (hi : ∀ x ∈ imports, x.Rooted) :
    (run m imports).checked.Sourced m.name imports := by
  obtain ⟨hkeyed, hsourced⟩ := sourced_elaborate (m := m) hi
  exact ⟨hsourced.globals, hkeyed.entities, hsourced.exports, hsourced.own⟩

/-- In a module that is accepted, all names in scope denote something. -/
theorem known_of_module (hi : ∀ x ∈ imports, x.Rooted) {k : Checked}
    (h : module m imports = .ok k) (space : Namespace) (occ : String) :
    ∀ x ∈ k.globals.scope.lookup space occ, (k.globals.entity? x.name).isSome := by
  obtain ⟨hno, -⟩ := of_module_eq_ok h
  rw [eq_of_module_eq_ok h]
  intro x hx
  cases space with
  | type => exact (sourced_elaborate hi).2.globals.types occ x hx
  | value =>
    have hnamed : ∀ x ∈ imports, x.Named := fun x hx => (hi x hx).named
    have hok : ∀ r ∈ (declared m imports).2.reports, r.isError = false :=
      fun r hr => hno r (reports_declared_subset hr)
    have hahead : (elaborate m imports).declared.Ahead m _ (declared m imports).2 :=
      returns_ahead_binds (ahead_declared hnamed) (owned_declared hnamed hok)
        (declared m imports).1 _
    obtain ⟨-, -, -, hknown⟩ := hahead.tidy.globals.scope occ x hx
    exact hknown.resolve_right (not_unchecked_groups _ _)

end Check

end TypeLens
