import TypeLens.Proofs.Checking.Agreement
import TypeLens.Proofs.Checking.Declarations

/-!
What modules know and make known if all they import comes from modules that were accepted.
-/

namespace TypeLens.Check

/-- What the module `m` exports that was accepted, and so was all that it imports. -/
inductive Compiled : Exports → Prop
  | intro {m : Surface.Module} {imports : List Exports} {checked : Checked}
      (hi : ∀ x ∈ imports, Compiled x) (hm : module m imports = .ok checked) :
      Compiled checked.exports

/-- Declarations that leave classes and instances well-formed, with the instances `is`. -/
structure Declaring.WellFormed (once : Prop) (is : List Instance) (d : Declaring) : Prop where
  globals : d.globals.WellFormed once
  exports : d.exports.WellFormed once
  instances : d.globals.instances = is

variable {once : Prop} {is : List Instance}

theorem Declaring.WellFormed.addIdents {d : Declaring} (hd : d.WellFormed once is) (ids : Bound) :
    (addIdents d ids).WellFormed once is := by
  unfold Check.addIdents
  induction ids generalizing d with
  | nil => exact hd
  | cons i ids ih =>
    exact ih ⟨hd.globals.addEntity trivial, hd.exports.addEntity trivial, hd.instances⟩

section

variable {I : Declaring → Prop} (hI : ∀ d ids, I d → I (addIdents d ids))
include hI

/-- The bindings of a group change what is declared by nothing but new identifiers. -/
theorem returns_topGroup {d : Declaring} (hd : I d) (g : List Job) :
    Returns (topGroup d g) fun r => I r.2 := by
  unfold topGroup
  split
  · exact .pure hd
  dsimp only
  split
  · split
    · exact .skip fun b => .pure hd
    · exact .skip fun r => .pure (hI d r.2 hd)
  · exact .skip fun r => .pure (hI d r.2 hd)

theorem returns_topGroups {d : Declaring} (hd : I d) (gs : List (List Job)) :
    Returns (topGroups d gs) fun r => I r.2 := by
  induction gs generalizing d with
  | nil => exact .pure hd
  | cons g gs ih =>
    exact .bind (returns_topGroup hI hd g) fun r hr => .bind (ih hr) fun _ hr' => .pure hr'

end

theorem returns_binds {d : Declaring} (hd : d.WellFormed once is)
    (instances : List (Instance × Surface.InstanceDecl)) (m : Surface.Module) :
    Returns (binds d instances m) (·.2.WellFormed once is) :=
  .bind (returns_topGroups (fun _ ids hd => hd.addIdents ids) hd _) fun _ hr =>
    .skip fun _ => .pure hr

variable {m : Surface.Module} {imports : List Exports}

/-- Bindings add identifiers to what a module declares, and no classes or instances. -/
theorem wellFormed_elaborate (hi : ∀ x ∈ imports, x.WellFormed True) :
    (elaborate m imports).declared.WellFormed (ClassesOnce m)
      (declared m imports).2.globals.instances := by
  obtain ⟨hd, -, -⟩ := sound_declared hi
  exact returns_binds ⟨hd.globals, hd.exports, rfl⟩ (declared m imports).1 m _

/-- The reports on declarations are among those on the module. -/
theorem reports_declared_subset :
    (declared m imports).2.reports ⊆ (elaborate m imports).state.reports := by
  let start : State := { reports := (declared m imports).2.reports }
  exact (evolves_binds (declared m imports).2 (declared m imports).1 m start).later.reports.subset

theorem Compiled.wellFormed {x : Exports} (h : Compiled x) : x.WellFormed True := by
  induction h with
  | @intro m imports checked _ hm ih =>
    obtain ⟨hno, -⟩ := of_module_eq_ok hm
    obtain ⟨-, -, honce⟩ := sound_declared (m := m) ih
    rw [eq_of_module_eq_ok hm]
    exact (wellFormed_elaborate ih).exports.mono fun _ =>
      honce fun r hr => hno r (reports_declared_subset hr)

end TypeLens.Check
