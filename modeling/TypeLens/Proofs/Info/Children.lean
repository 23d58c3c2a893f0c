import TypeLens.Info

/-!
Descriptions that give way to the description of their parent. Who gives way is decided by the names
of all descriptions, not of those that stay. Nothing is lost all the same, because chains of parents
are short: what is a parent has none itself.
-/

namespace TypeLens

namespace Entity

/-- Types and classes are named as types and belong to nothing; constructors and identifiers are
named as values and belong, if to anything, to what is named as a type. -/
def WellPlaced : Entity → Prop
  | .tyCon t => t.name.space = .type
  | .typeClass c => c.name.space = .type
  | .dataCon c => c.name.space = .value ∧ c.parent.space = .type
  | .ident i => i.name.space = .value ∧ ∀ p ∈ i.parent, p.space = .type

instance : DecidablePred WellPlaced
  | .tyCon t => inferInstanceAs (Decidable (t.name.space = .type))
  | .typeClass c => inferInstanceAs (Decidable (c.name.space = .type))
  | .dataCon c => inferInstanceAs (Decidable (c.name.space = .value ∧ c.parent.space = .type))
  | .ident i =>
    inferInstanceAs (Decidable (i.name.space = .value ∧ ∀ p ∈ i.parent, p.space = .type))

variable {e : Entity} {p : Name}

theorem WellPlaced.space_of_mem_parent? (h : e.WellPlaced) (hp : p ∈ e.parent?) :
    p.space = .type := by
  cases e with
  | tyCon | typeClass => cases hp
  | dataCon c =>
    cases hp
    exact h.2
  | ident i => exact h.2 p hp

/-- What is named as a type belongs to nothing. -/
theorem WellPlaced.parent?_eq_none (h : e.WellPlaced) (hspace : e.name.space = .type) :
    e.parent? = none := by
  cases e with
  | tyCon | typeClass => rfl
  | dataCon c => exact absurd (h.1.symm.trans hspace) (by decide)
  | ident i => exact absurd (h.1.symm.trans hspace) (by decide)

end Entity

namespace Info

variable {infos : List Info} {i : Info}

theorem mem_withoutChildren :
    i ∈ withoutChildren infos ↔
      i ∈ infos ∧ ∀ p ∈ i.entity.parent?, ∀ j ∈ infos, j.entity.name ≠ p := by
  simp only [withoutChildren, List.mem_filter, Bool.not_eq_true', Option.any_eq_false,
    List.contains_eq_mem, decide_eq_false_iff_not, List.mem_map, not_exists, not_and]
  rfl

theorem withoutChildren_sublist (infos : List Info) : (withoutChildren infos).Sublist infos :=
  List.filter_sublist

/-- A description stays as often as it was there. -/
theorem count_withoutChildren (h : i ∈ withoutChildren infos) :
    (withoutChildren infos).count i = infos.count i :=
  List.count_filter (List.mem_filter.1 h).2

/-- What has no parent stays. -/
theorem mem_withoutChildren_of_parent? (hi : i ∈ infos) (hparent : i.entity.parent? = none) :
    i ∈ withoutChildren infos :=
  mem_withoutChildren.2 ⟨hi, fun p hp => by rw [hparent] at hp; cases hp⟩

/-- What gives way does so to something that stays: a parent is named as a type and thus has no
parent that it could give way to. -/
theorem exists_parent_of_not_mem (h : ∀ j ∈ infos, j.entity.WellPlaced) (hi : i ∈ infos)
    (hdropped : i ∉ withoutChildren infos) :
    ∃ p ∈ i.entity.parent?, ∃ j ∈ withoutChildren infos, j.entity.name = p := by
  obtain ⟨p, hp, j, hj, hname⟩ :
      ∃ p ∈ i.entity.parent?, ∃ j ∈ infos, j.entity.name = p :=
    Classical.byContradiction fun hnone => hdropped <| mem_withoutChildren.2
      ⟨hi, fun p hp j hj hname => hnone ⟨p, hp, j, hj, hname⟩⟩
  have hspace : j.entity.name.space = .type := hname ▸ (h i hi).space_of_mem_parent? hp
  exact ⟨p, hp, j, mem_withoutChildren_of_parent? hj ((h j hj).parent?_eq_none hspace), hname⟩

theorem name_ne_of_mem_withoutChildren {j : Info} {p : Name} (hi : i ∈ withoutChildren infos)
    (hp : p ∈ i.entity.parent?) (hj : j ∈ withoutChildren infos) : j.entity.name ≠ p :=
  (mem_withoutChildren.1 hi).2 p hp j (mem_withoutChildren.1 hj).1

theorem withoutChildren_idem (infos : List Info) :
    withoutChildren (withoutChildren infos) = withoutChildren infos := by
  refine (withoutChildren_sublist _).eq_of_length_le (Nat.le_of_eq (congrArg List.length ?_))
  refine (List.filter_eq_self.2 fun i hi => ?_).symm
  have hstays : i ∈ withoutChildren (withoutChildren infos) :=
    mem_withoutChildren.2 ⟨hi, fun p hp j hj => name_ne_of_mem_withoutChildren hi hp hj⟩
  exact (List.mem_filter.1 hstays).2

/-- Descriptions that give way to their parents' are accounted for: the others stay in their order
and number, none of them belongs to another, everything left out belongs to one of them, and leaving
out once is enough. -/
theorem withoutChildren_loses_nothing (h : ∀ i ∈ infos, i.entity.WellPlaced) :
    (withoutChildren infos).Sublist infos ∧
      (∀ i ∈ withoutChildren infos, (withoutChildren infos).count i = infos.count i) ∧
      (∀ i ∈ withoutChildren infos, ∀ p ∈ i.entity.parent?,
        ∀ j ∈ withoutChildren infos, j.entity.name ≠ p) ∧
      (∀ i ∈ infos, i ∉ withoutChildren infos →
        ∃ p ∈ i.entity.parent?, ∃ j ∈ withoutChildren infos, j.entity.name = p) ∧
      withoutChildren (withoutChildren infos) = withoutChildren infos :=
  ⟨withoutChildren_sublist infos, fun _ => count_withoutChildren,
    fun _ hi _ hp _ => name_ne_of_mem_withoutChildren hi hp,
    fun _ => exists_parent_of_not_mem h, withoutChildren_idem infos⟩

/-- Two values and a type of one text, of which the first value is the type's. -/
def threeOfOneText : List Info :=
  let con : DataCon :=
    { name := ⟨"T", "A", .value, 0⟩, loc := .unknown, parent := ⟨"T", "A", .type, 0⟩,
      scheme := ⟨[], [], .con ⟨"T", "A", .type, 0⟩⟩, argTypes := [] }
  let other : DataCon :=
    { con with name := ⟨"T", "B", .value, 0⟩, parent := ⟨"U", "B", .type, 0⟩ }
  let type : TyCon := ⟨⟨"T", "A", .type, 0⟩, .unknown, [], [con]⟩
  [.dataCon con, .dataCon other, .tyCon type].map fun e => ⟨e, .default, []⟩

theorem withoutChildren_loses_nothing_of_three :
    (∀ i ∈ threeOfOneText, i.entity.WellPlaced) ∧ (withoutChildren threeOfOneText).length = 2 ∧
      ∀ i ∈ threeOfOneText, i ∉ withoutChildren threeOfOneText →
        ∃ p ∈ i.entity.parent?, ∃ j ∈ withoutChildren threeOfOneText, j.entity.name = p :=
  have hplaced : ∀ i ∈ threeOfOneText, i.entity.WellPlaced := by decide
  ⟨hplaced, by decide, (withoutChildren_loses_nothing hplaced).2.2.2.1⟩

end Info

end TypeLens
