import TypeLens.Proofs.Checking.Compiled
import TypeLens.Proofs.Checking.Exports

/-!
What denotes a constructor while a module is checked still does so in the end.
-/

namespace TypeLens.Check

/-- No binding has the name of a constructor that is imported. -/
def KeepsConstructors (m : Surface.Module) (imports : List Exports) : Prop :=
  ∀ b ∈ m.bindings, ∀ y ∈ b.binders, ¬ (Declaring.initial m imports).Constructs m y.1

theorem binders_of_mem_jobs {bs : List Surface.Binding} {j : Surface.Dependencies × Job}
    (hj : j ∈ jobs bs) : ∃ b ∈ bs, j.2.binders = b.binders := by
  induction bs with
  | nil => cases hj
  | cons b bs ih =>
    unfold jobs at hj
    rcases List.mem_cons.1 hj with rfl | hj
    · refine ⟨b, List.mem_cons_self .., ?_⟩
      cases b with
      | fn b =>
        obtain ⟨n, nl, r, rs, l⟩ := b
        rfl
      | pat b =>
        obtain ⟨p, e, l⟩ := b
        rfl
    · obtain ⟨b', hb', h⟩ := ih hj
      exact ⟨b', List.mem_cons_of_mem _ hb', h⟩

/-- Names other than those of the binders denote what they denoted. -/
structure Leaves (js : List Job) (d d' : Declaring) : Prop where
  module : d'.globals.module = d.globals.module
  entity? : ∀ n, (∀ j ∈ js, ∀ y ∈ j.binders, topName d.globals.module .value y.1 ≠ n) →
    d'.globals.entity? n = d.globals.entity? n

namespace Leaves

variable {js : List Job} {d d' d'' : Declaring}

theorem refl : Leaves js d d := ⟨rfl, fun _ _ => rfl⟩

theorem trans (h : Leaves js d d') (h' : Leaves js d' d'') : Leaves js d d'' where
  module := h'.module.trans h.module
  entity? n hn := (h'.entity? n fun j hj y hy => h.module ▸ hn j hj y hy).trans (h.entity? n hn)

theorem mono {js' : List Job} (h : Leaves js d d') (hjs : js ⊆ js') : Leaves js' d d' :=
  ⟨h.module, fun n hn => h.entity? n fun j hj => hn j (hjs hj)⟩

end Leaves

variable {js : List Job}

theorem leaves_addIdents {ids : Bound} {d : Declaring}
    (h : ∀ i ∈ ids, ∃ j ∈ js, ∃ y ∈ j.binders, i.2.name = topName d.globals.module .value y.1) :
    Leaves js d (addIdents d ids) := by
  induction ids generalizing d with
  | nil => exact .refl
  | cons i ids ih =>
    obtain ⟨⟨j, hj, y, hy, hname⟩, hids⟩ := List.forall_mem_cons.1 h
    have hstep : Leaves js d (addIdents d [i]) := ⟨rfl, fun n hn =>
      Table.get?_put_of_ne (fun heq => hn j hj y hy (hname ▸ heq)) _ _⟩
    exact hstep.trans (ih (d := addIdents d [i]) hids)

/-- Generalising a group keeps the names of its identifiers. -/
theorem returns_inferGroup (env : Env) {nameOf : String → CheckM Name} {P : Name → Prop}
    (hn : ∀ j ∈ js, ∀ y ∈ j.binders, Returns (nameOf y.1) P) :
    Returns (inferGroup env nameOf js) fun r => ∀ i ∈ r.2, P i.2.name := by
  have hmonos : Returns (openGroup env nameOf js) fun g => ∀ i ∈ g.monos, P i.2.name :=
    returns_openGroup env fun j hj y hy s _ => hn j hj y hy s
  refine .bind hmonos fun g hg => .skip fun s => .skip fun ds => .skip fun _ => .skip fun s' => ?_
  refine .pure fun i hi => ?_
  obtain ⟨m, hm, rfl⟩ := List.mem_map.1 hi
  exact hg m hm

theorem leaves_topGroup (d : Declaring) (g : List Job) :
    Returns (topGroup d g) fun r => Leaves g d r.2 := by
  have hgroup : Returns (inferGroup { globals := d.globals }
      (fun occ => return topName d.globals.module .value occ) g >>= fun r =>
        return ([r.1], addIdents d r.2)) fun r => Leaves g d r.2 := by
    let P (n : Name) : Prop := ∃ j ∈ g, ∃ y ∈ j.binders, n = topName d.globals.module .value y.1
    refine .bind (returns_inferGroup (P := P) _ fun j hj y hy => .pure ⟨j, hj, y, hy, rfl⟩)
      fun r hr => .pure (leaves_addIdents hr)
  unfold topGroup
  split
  · exact .pure .refl
  dsimp only
  split
  · split
    · exact .skip fun _ => .pure .refl
    · exact hgroup
  · exact hgroup

theorem leaves_topGroups (d : Declaring) {gs : List (List Job)} (hgs : ∀ g ∈ gs, g ⊆ js) :
    Returns (topGroups d gs) fun r => Leaves js d r.2 := by
  induction gs generalizing d with
  | nil => exact .pure .refl
  | cons g gs ih =>
    obtain ⟨hg, hgs⟩ := List.forall_mem_cons.1 hgs
    refine .bind (leaves_topGroup d g) fun r hr => .bind (ih r.2 hgs) fun r' hr' => .pure ?_
    exact (hr.mono hg).trans hr'

variable {m : Surface.Module} {imports : List Exports} {checked : Checked}

theorem leaves_elaborate (m : Surface.Module) (imports : List Exports) :
    Leaves ((jobs m.bindings).map (·.2)) (declared m imports).2
      (elaborate m imports).declared := by
  have hgroups : ∀ g ∈ Surface.groupsOf (jobs m.bindings) (declared m imports).2.signatures.keys,
      g ⊆ (jobs m.bindings).map (·.2) := by
    intro g hg j hj
    obtain ⟨y, hy, rfl⟩ := Surface.mem_of_mem_groupsOf hg hj
    exact List.mem_map_of_mem hy
  have hbinds : Returns (binds (declared m imports).2 (declared m imports).1 m) fun r =>
      Leaves ((jobs m.bindings).map (·.2)) (declared m imports).2 r.2 :=
    .bind (leaves_topGroups _ hgroups) fun r hr => .skip fun _ => .pure hr
  exact hbinds _

/-- In a module that is accepted, what denotes a constructor once all is declared does so in the
end. -/
theorem entity?_of_constructor (hi : ∀ x ∈ imports, Compiled x)
    (hm : module m imports = .ok checked) (hk : KeepsConstructors m imports) {n : Name}
    {c : DataCon} (h : (declared m imports).2.globals.entity? n = some (.dataCon c)) :
    checked.globals.entity? n = some (.dataCon c) := by
  have hwf : ∀ x ∈ imports, x.WellFormed True := fun x hx => (hi x hx).wellFormed
  obtain ⟨hd, -, -⟩ := sound_declared (m := m) hwf
  obtain ⟨hno, -⟩ := of_module_eq_ok hm
  rw [eq_of_module_eq_ok hm]
  refine ((leaves_elaborate m imports).entity? n fun j hj y hy hname => ?_).trans h
  obtain ⟨x, hx, rfl⟩ := List.mem_map.1 hj
  obtain ⟨b, hb, hbinders⟩ := binders_of_mem_jobs hx
  rw [hbinders] at hy
  have hapart := constructs_declared hwf fun r hr => hno r (reports_declared_subset hr)
  refine hk b hb y hy ((hapart b hb y hy).1 ⟨c, ?_⟩)
  rw [← hd.module]
  exact hname ▸ h

end TypeLens.Check
