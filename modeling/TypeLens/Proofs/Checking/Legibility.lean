import TypeLens.Proofs.Checking.Environments
import TypeLens.Proofs.Checking.Resolution
import TypeLens.Proofs.Surface.Spellings

/-!
Names in scope can be written. All that comes into scope of a module was introduced by a declaration
of this module or of one that it imports, so that it is spelled as names in declarations are; and it
is found by its spelling alone.
-/

namespace TypeLens

/-- If values stand under their own keys, one finds by a key what has that key. -/
theorem Table.filter_values {κ α : Type} [DecidableEq κ] {t : Table κ (List α)} {key : α → κ}
    (hkey : ∀ p ∈ t, ∀ x ∈ p.2, key x = p.1) (hnodup : t.keys.Nodup) (k : κ) :
    t.values.flatten.filter (key · = k) = (t.get? k).getD [] := by
  induction t with
  | nil => rfl
  | cons p t ih =>
    obtain ⟨k', xs⟩ := p
    obtain ⟨hxs, ht⟩ := List.forall_mem_cons.1 hkey
    obtain ⟨hnot, hnodup⟩ := List.nodup_cons.1 hnodup
    have hfirst : xs.filter (key · = k) = if k' = k then xs else [] := by
      split
      · next hk =>
        exact List.filter_eq_self.2 fun x hx => decide_eq_true ((hxs x hx).trans hk)
      · next hk =>
        exact List.filter_eq_nil_iff.2 fun x hx h =>
          hk ((hxs x hx).symm.trans (of_decide_eq_true h))
    have hrest := ih ht hnodup
    rw [values, List.map_cons, List.flatten_cons, List.filter_append, hfirst]
    rw [values] at hrest
    rw [hrest, get?]
    split
    · next hk =>
      have hnone : get? k t = none := get?_eq_none_iff.2 (hk ▸ hnot)
      rw [hnone]
      exact List.append_nil _
    · exact List.nil_append _

namespace Scope

/-- All names in scope are spelled as names that can be declared. -/
def Declarable (s : Scope) : Prop :=
  ∀ space occ, ∀ x ∈ s.lookup space occ, TypeLens.Declarable x.name.space x.name.occ

theorem Declarable.add {s : Scope} (hs : s.Declarable) {d : Declared}
    (hd : TypeLens.Declarable d.name.space d.name.occ) : (s.add d).Declarable := by
  intro space occ x hx
  rcases mem_lookup_add hx with hx | ⟨rfl, -, -⟩
  · exact hs space occ x hx
  · exact hd

/-- The types or the values in scope that have this spelling. -/
def under (s : Scope) (space : Namespace) (occ : String) : List Declared :=
  s.names.filter fun d => d.name.space = space ∧ d.name.occ = occ

theorem mem_under {s : Scope} {space : Namespace} {occ : String} {d : Declared} :
    d ∈ s.under space occ ↔ d ∈ s.names ∧ d.name.space = space ∧ d.name.occ = occ := by
  rw [under, List.mem_filter, decide_eq_true_eq]

/-- A scope whose names are found by their spellings, and can be declared. -/
structure Legible (s : Scope) : Prop where
  keyed : s.Keyed
  nodup : s.entries.keys.Nodup
  declarable : s.Declarable

namespace Legible

variable {s : Scope} {d : Declared}

theorem lookup_eq (h : s.Legible) (space : Namespace) (occ : String) :
    s.lookup space occ = s.under space occ := by
  have hkey : ∀ p ∈ s.entries, ∀ x ∈ p.2, (x.name.space, x.name.occ) = p.1 := by
    intro p hp x hx
    have hlookup : s.lookup p.1.1 p.1.2 = p.2 := by
      rw [lookup, Table.get?_of_mem h.nodup hp, Option.getD_some]
    obtain ⟨hspace, hocc⟩ := h.keyed p.1.1 p.1.2 x (hlookup ▸ hx)
    exact Prod.ext hspace hocc
  rw [lookup, ← Table.filter_values hkey h.nodup, under]
  exact List.filter_congr fun x _ => decide_eq_decide.2 (Iff.of_eq (Prod.mk.injEq _ _ _ _))

theorem declarable_of_mem (h : s.Legible) (hd : d ∈ s.names) :
    TypeLens.Declarable d.name.space d.name.occ :=
  h.declarable _ _ d (h.lookup_eq _ _ ▸ mem_under.2 ⟨hd, rfl, rfl⟩)

end Legible

end Scope

/-- All that a module exports is spelled as what can be declared. -/
def Exports.Declarable (x : Exports) : Prop :=
  ∀ p ∈ x.entities, TypeLens.Declarable p.2.name.space p.2.name.occ

/-- The names of a module can be written, and those that it exports. -/
structure Checked.Legible (k : Checked) : Prop where
  scope : k.globals.scope.Legible
  exports : k.exports.Declarable

namespace Check

variable {m : Surface.Module} {imports : List Exports} {late : Bool} {d : Declaring}

structure Declaring.Declarable (d : Declaring) : Prop where
  scope : d.globals.scope.Declarable
  exports : d.exports.Declarable

theorem Declaring.Declarable.addEntity (hd : d.Declarable) {e : Entity} {d' : Declaring}
    (he : TypeLens.Declarable e.name.space e.name.occ) (hscope : d'.globals.scope.Declarable)
    (hexports : d'.exports = d.exports.addEntity e) : d'.Declarable where
  scope := hscope
  exports := hexports ▸ Table.forall_mem_put hd.exports he

theorem declarable_listEntities :
    ∀ e ∈ Declare.listEntities, TypeLens.Declarable e.name.space e.name.occ := by
  have hcons : Lex.IsOperator ":" :=
    ⟨by decide, List.all_eq_true.1 (by decide), by decide, by decide⟩
  refine List.forall_mem_cons.2 ⟨.list _, List.forall_mem_cons.2 ⟨.list _, ?_⟩⟩
  exact List.forall_mem_singleton.2 (.operator hcons)

/-- What a module adds to its scope and to its exports, its declarations introduce. -/
theorem inductive_declarable (hm : ∀ k ∈ m.introduced, TypeLens.Declarable k.1 k.2) :
    Inductive m late (·.Declarable) := by
  intro d d' h hd
  have hadd {e : Entity} (he : TypeLens.Declarable e.name.space e.name.occ) :
      (d.globals.addEntity e).scope.Declarable := hd.scope.add he
  cases h with
  | report | inst | fixity => exact ⟨hd.scope, hd.exports⟩
  | wireIn he =>
    have he := declarable_listEntities _ he
    exact hd.addEntity he (hadd he) rfl
  | @declare _ space occ e hname _ _ hintro =>
    have he : TypeLens.Declarable e.name.space e.name.occ := hname ▸ hm _ hintro
    exact hd.addEntity he ((hd.scope.add he).add he) rfl
  | @complete _ occ e hname _ hintro =>
    have he : TypeLens.Declarable e.name.space e.name.occ := hname ▸ hm _ hintro
    exact hd.addEntity he (hadd he) rfl
  | bind hb hy => exact ⟨hd.scope.add (hm _ (binder_mem_introduced hb hy)), hd.exports⟩
  | @sign _ occ s loc h =>
    exact hd.addEntity (e := .ident ⟨topName m.name .value occ, loc, s, none⟩)
      (hm _ (signed_mem_introduced h)) (hadd (hm _ (signed_mem_introduced h))) rfl
  | identify occ s loc hintro =>
    exact hd.addEntity (e := .ident ⟨topName m.name .value occ, loc, s, none⟩)
      (hm _ hintro) (hadd (hm _ hintro)) rfl

theorem declarable_initial (hi : ∀ x ∈ imports, x.Declarable) :
    (Declaring.initial m imports).Declarable where
  scope := by
    refine initial_of_imported (J := (·.scope.Declarable)) (fun x hx e he g hg => hg.add ?_)
      (fun _ _ _ _ _ hg => hg) (fun _ _ hg => hg) fun _ _ _ h => absurd h List.not_mem_nil
    obtain ⟨p, hp, rfl⟩ := List.mem_map.1 he
    exact hi x hx p hp
  exports _ h := absurd h List.not_mem_nil

/-- The names of a module can be written if that is so of the names that it introduces and of those
that it imports. -/
theorem legible_run (hm : ∀ k ∈ m.introduced, TypeLens.Declarable k.1 k.2)
    (hi : ∀ x ∈ imports, x.Declarable) : (run m imports).checked.Legible := by
  obtain ⟨-, hdeclarable⟩ :=
    elaborated_of_inductive (inductive_declarable hm) (declarable_initial hi)
  have hkeyed : (elaborate m imports).declared.globals.scope.Keyed :=
    (elaborated_of_inductive inductive_scopeKeyed scopeKeyed_initial).2
  exact ⟨⟨hkeyed, (distinct_elaborate m imports).scope, hdeclarable.scope⟩, hdeclarable.exports⟩

end Check

end TypeLens
