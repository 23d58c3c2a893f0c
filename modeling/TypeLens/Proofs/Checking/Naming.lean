import TypeLens.Proofs.Checking.Constructors
import TypeLens.Proofs.Typed.Reading

/-!
Names at the top level. What is in scope of a module is never a local name, and it is known what it
denotes, apart from the module's own bindings that are not checked yet.
-/

namespace TypeLens

theorem Scope.mem_lookup_add {s : Scope} {d x : Declared} {space : Namespace} {occ : String}
    (h : x ∈ (s.add d).lookup space occ) :
    x ∈ s.lookup space occ ∨ x = d ∧ d.name.space = space ∧ d.name.occ = occ := by
  have hmerge {current : List Declared} (h : x ∈ merge s.module current d) :
      x ∈ current ∨ x = d := by
    unfold merge at h
    split at h
    · exact .inl h
    split at h
    · rcases List.mem_append.1 h with h | h
      · exact .inl (List.mem_of_mem_filter h)
      · exact .inr (List.mem_singleton.1 h)
    split at h
    · exact .inl h
    · exact (List.mem_append.1 h).imp_right List.mem_singleton.1
  unfold add lookup at h
  dsimp only at h
  rw [Table.get?_put] at h
  split at h
  · next hkey =>
    obtain ⟨hspace, hocc⟩ := Prod.mk.inj hkey
    subst hspace hocc
    exact (hmerge h).imp_right fun h => ⟨h, rfl, rfl⟩
  · exact .inl h

/-- Variables and constructors. -/
def Entity.isValue : Entity → Bool
  | .dataCon _ => true
  | .ident _ => true
  | _ => false

structure Entity.Named (e : Entity) : Prop where
  top : ¬ e.name.IsLocal
  value : e.name.space = .value → e.isValue

structure Exports.Named (x : Exports) : Prop where
  entities : ∀ p ∈ x.entities, p.2.Named
  instances : ∀ i ∈ x.instances, ¬ i.name.IsLocal

/-- What is in scope has a name of the top level, and only of the values in `bare` it is not known
what they denote. -/
structure Globals.Named (bare : Name → Prop) (g : Globals) : Prop where
  entities : ∀ p ∈ g.entities, p.1 = p.2.name ∧ p.2.Named
  instances : ∀ i ∈ g.instances, ¬ i.name.IsLocal
  scope : ∀ occ, ∀ x ∈ g.scope.lookup .value occ, x.name.space = .value ∧ x.name.occ = occ ∧
    ¬ x.name.IsLocal ∧ ((g.entity? x.name).isSome ∨ bare x.name)

theorem Exports.Named.addEntity {x : Exports} (hx : x.Named) {e : Entity} (he : e.Named) :
    (x.addEntity e).Named :=
  ⟨Table.forall_mem_put hx.entities he, hx.instances⟩

theorem Exports.Named.addInstance {x : Exports} (hx : x.Named) {i : Instance}
    (hi : ¬ i.name.IsLocal) : (x.addInstance i).Named :=
  ⟨hx.entities, List.forall_mem_append.2 ⟨hx.instances, List.forall_mem_singleton.2 hi⟩⟩

namespace Globals

variable {bare bare' : Name → Prop} {g : Globals}

theorem isSome_entity?_addEntity {e : Entity} {n : Name} :
    ((g.addEntity e).entity? n).isSome ↔ e.name = n ∨ (g.entity? n).isSome :=
  Table.contains_put

namespace Named

theorem mono (hg : g.Named bare) (h : ∀ n, bare n → (g.entity? n).isSome ∨ bare' n) :
    g.Named bare' where
  entities := hg.entities
  instances := hg.instances
  scope occ x hx := by
    obtain ⟨hspace, hocc, htop, hknown⟩ := hg.scope occ x hx
    exact ⟨hspace, hocc, htop, hknown.elim .inl (h x.name)⟩

/-- A name that is declared denotes nothing at first. -/
theorem declare (hg : g.Named bare) {d : Declared} (htop : ¬ d.name.IsLocal)
    (hbare : d.name.space = .value → bare d.name) :
    { g with scope := g.scope.add d }.Named bare where
  entities := hg.entities
  instances := hg.instances
  scope occ x hx := by
    rcases Scope.mem_lookup_add hx with hx | ⟨rfl, hspace, hocc⟩
    · exact hg.scope occ x hx
    · exact ⟨hspace, hocc, htop, .inr (hbare hspace)⟩

theorem addEntity (hg : g.Named bare) {e : Entity} (he : e.Named) :
    (g.addEntity e).Named fun n => bare n ∧ n ≠ e.name where
  entities := Table.forall_mem_put hg.entities ⟨rfl, he⟩
  instances := hg.instances
  scope occ x hx := by
    rw [isSome_entity?_addEntity]
    rcases Scope.mem_lookup_add hx with hx | ⟨rfl, hspace, hocc⟩
    · obtain ⟨hspace, hocc, htop, hknown⟩ := hg.scope occ x hx
      refine ⟨hspace, hocc, htop, ?_⟩
      by_cases hname : e.name = x.name
      · exact .inl (.inl hname)
      · exact hknown.imp .inr fun h => ⟨h, Ne.symm hname⟩
    · exact ⟨hspace, hocc, he.top, .inl (.inl rfl)⟩

theorem addInstance (hg : g.Named bare) {i : Instance} (hi : ¬ i.name.IsLocal) :
    (g.addInstance i).Named bare :=
  ⟨hg.entities, List.forall_mem_append.2 ⟨hg.instances, List.forall_mem_singleton.2 hi⟩, hg.scope⟩

/-- What a name can mean. -/
theorem resolve (hg : g.Named bare) {role : Check.Role} {occ : String} {n : Name}
    (h : Check.resolve g .value role occ = .ok n) :
    n.occ = occ ∧ ¬ n.IsLocal ∧ ((∃ e, g.entity? n = some e ∧ e.isValue) ∨ bare n) := by
  unfold Check.resolve at h
  split at h
  · cases h
  · next d hd =>
    cases h
    obtain ⟨hspace, hocc, htop, hknown⟩ := hg.scope occ d (hd ▸ List.mem_singleton_self d)
    refine ⟨hocc, htop, hknown.imp_left fun hsome => ?_⟩
    obtain ⟨e, he⟩ := Option.isSome_iff_exists.1 hsome
    obtain ⟨hname, hnamed⟩ := hg.entities _ (Table.mem_of_get? he)
    exact ⟨e, he, hnamed.value (hname ▸ hspace)⟩
  · cases h

end Named

theorem named_importAll {x : Exports} (hg : g.Named bare) (hx : x.Named) :
    (g.importAll x).Named bare := by
  have hentities {es : List Entity} (hes : ∀ e ∈ es, e.Named) {g : Globals} (hg : g.Named bare) :
      (es.foldl Globals.addEntity g).Named bare := by
    induction es generalizing g with
    | nil => exact hg
    | cons e es ih =>
      obtain ⟨he, hes⟩ := List.forall_mem_cons.1 hes
      exact ih hes ((hg.addEntity he).mono fun n h => .inr h.1)
  have hinstances {is : List Instance} (his : ∀ i ∈ is, ¬ i.name.IsLocal) {g : Globals}
      (hg : g.Named bare) : (is.foldl Globals.importInstance g).Named bare := by
    induction is generalizing g with
    | nil => exact hg
    | cons i is ih =>
      obtain ⟨hi, his⟩ := List.forall_mem_cons.1 his
      refine ih his ?_
      unfold Globals.importInstance
      split
      · exact hg
      · exact hg.addInstance hi
  have hvalues : ∀ e ∈ x.entities.values, e.Named := by
    intro e he
    obtain ⟨p, hp, rfl⟩ := List.mem_map.1 he
    exact hx.entities p hp
  have hg' := hentities hvalues hg
  exact hinstances hx.instances (g := { x.entities.values.foldl Globals.addEntity g with
    fixities := (x.entities.values.foldl Globals.addEntity g).fixities.putAll x.fixities })
    ⟨hg'.entities, hg'.instances, hg'.scope⟩

end Globals

end TypeLens
