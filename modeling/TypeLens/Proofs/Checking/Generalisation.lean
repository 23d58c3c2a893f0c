import TypeLens.Proofs.Checking.Inference

/-!
Which variables a local binding group is generalised over. The variables that its surroundings leave
open are collected before the group is checked, and checking can refine them; what comes of that
decides whether generalisation is sound.
-/

namespace TypeLens.Check

open Typed (Ident)

/-- A local group of bindings that have been checked, and the state then. -/
abbrev openedGroup (env : Env) (bs : List Surface.Binding) (s : State) : OpenGroup × State :=
  (openGroup env (localName env) (bs.map job)).run s

/-- Checking the bindings makes no variable that the surroundings left open before stand for a type
with a new variable that stays open in the type of a binder. -/
def NoEscape (env : Env) (bs : List Surface.Binding) (s : State) : Prop :=
  let r := openedGroup env bs s
  ∀ k ∈ uvarsOf s.subst env.locals, ∀ m ∈ (r.2.subst.apply (.uvar k)).uvarOccurrences,
    m ∉ uvarsOf s.subst env.locals → m ∉ uvarsOf r.2.subst r.1.monos

theorem later_openedGroup (env : Env) (bs : List Surface.Binding) (s : State) :
    Later s (openedGroup env bs s).2 :=
  (evolves_openGroup env (quiet_localName env) bs s).later

theorem mem_uvarsOf_of_grows {σ σ' : Subst} (h : σ.Grows σ') {ids : Locals} {m : UVar} :
    m ∈ uvarsOf σ' ids ↔ ∃ k ∈ uvarsOf σ ids, m ∈ (σ'.apply (.uvar k)).uvarOccurrences := by
  simp only [uvarsOf, List.mem_flatMap]
  constructor
  · rintro ⟨i, hi, hm⟩
    rw [← h, Subst.apply_eq] at hm
    obtain ⟨k, hk, hmk⟩ := Ty.mem_uvarOccurrences_substUvars.1 hm
    exact ⟨k, ⟨i, hi, hk⟩, hmk⟩
  · rintro ⟨k, ⟨i, hi, hk⟩, hm⟩
    refine ⟨i, hi, ?_⟩
    rw [← h, Subst.apply_eq]
    exact Ty.mem_uvarOccurrences_substUvars.2 ⟨k, hk, hm⟩

theorem OpenGroup.mem_uvars {g : OpenGroup} {σ : Subst} {m : UVar} :
    m ∈ g.uvars σ ↔ m ∈ uvarsOf σ g.monos ∧ m ∉ g.outer := by
  rw [uvars, List.mem_eraseDups, List.mem_filter, decide_eq_true_iff]

theorem apply_closeGroup {env : Env} {g : OpenGroup} {loc : Span} {s : State} {t : Ty}
    (h : ∀ m ∈ g.uvars s.subst, m ∉ (s.subst.apply t).uvarOccurrences) :
    ((closeGroup env g loc).run s).2.subst.apply t = s.subst.apply t := by
  let sc : Scoping := ⟨g.uvars s.subst, g.outer⟩
  let s' := ((solve env sc g.raised).run s).2
  let tvs := freshTyvars env.rigid (g.uvars s.subst).length
  have hsub := zip_fst_sublist (g.uvars s.subst) tvs
  have himage : s'.subst.image? = s.subst.image? := (quiet_solve env sc g.raised).image? s
  have hsame : s'.subst.apply t = s.subst.apply t := congrArg t.substUvars himage
  have hfix : (s'.subst.fixAll ((g.uvars s.subst).zip tvs)).apply t = s.subst.apply t := by
    rw [Subst.apply_fixAll ((nodup_eraseDups _).sublist hsub) fun p hp => ?_, hsame]
    · refine Ty.substUvars_eq_self fun m hm => ?_
      rw [Option.map_eq_none_iff, List.lookup_eq_none_iff]
      intro p hp
      have hp := hsub.subset (List.mem_map_of_mem hp)
      refine bne_iff_ne.2 fun he : m = p.1 => ?_
      rw [he] at hm
      exact h p.1 hp hm
    · rw [himage]
      exact OpenGroup.image?_of_mem_uvars (hsub.subset (List.mem_map_of_mem hp))
  exact hfix

/-- A local group is generalised over no variable in the type of an identifier of its surroundings
if and only if checking it lets no new variable escape into them. Then closing the group leaves the
types of those identifiers as they were. -/
theorem generalised_free_iff (env : Env) (bs : List Surface.Binding) (s : State) :
    let r := openedGroup env bs s
    ((∀ i ∈ env.locals, ∀ m ∈ r.1.uvars r.2.subst,
      m ∉ (r.2.subst.apply i.2.scheme.body).uvarOccurrences) ↔ NoEscape env bs s) ∧
    (NoEscape env bs s → ∀ loc, ∀ i ∈ env.locals,
      ((closeGroup env r.1 loc).run r.2).2.subst.apply i.2.scheme.body =
        r.2.subst.apply i.2.scheme.body) := by
  intro r
  have hgrow : s.subst.Grows r.2.subst := (later_openedGroup env bs s).grows
  have houter : r.1.outer = uvarsOf s.subst env.locals := rfl
  have hdisjoint : (∀ i ∈ env.locals, ∀ m ∈ r.1.uvars r.2.subst,
      m ∉ (r.2.subst.apply i.2.scheme.body).uvarOccurrences) ↔ NoEscape env bs s := by
    constructor
    · intro h k hk m hm hout hmono
      have henv := (mem_uvarsOf_of_grows hgrow).2 ⟨k, hk, hm⟩
      obtain ⟨i, hi, hmi⟩ := List.mem_flatMap.1 henv
      exact h i hi m (OpenGroup.mem_uvars.2 ⟨hmono, houter ▸ hout⟩) hmi
    · intro h i hi m hm hmi
      obtain ⟨hmono, hout⟩ := OpenGroup.mem_uvars.1 hm
      have henv : m ∈ uvarsOf r.2.subst env.locals := List.mem_flatMap.2 ⟨i, hi, hmi⟩
      obtain ⟨k, hk, hmk⟩ := (mem_uvarsOf_of_grows hgrow).1 henv
      exact h k hk m hmk (houter ▸ hout) hmono
  exact ⟨hdisjoint, fun h loc i hi => apply_closeGroup (hdisjoint.2 h i hi)⟩

theorem noEscape_of_closed {env : Env} {s : State} (h : uvarsOf s.subst env.locals = [])
    (bs : List Surface.Binding) : NoEscape env bs s := by
  intro k hk
  rw [h] at hk
  cases hk

def escaping : Surface.Binding :=
  .fn (.mk "y" .unknown
    (.mk [] (.app (.var "x" .unknown) (.lit (.int 1) .unknown) .unknown) .unknown) [] .unknown)

/-- The module with `f x = let { y = x 1 } in if y then 1 else 2`. -/
def escapingModule : Surface.Module :=
  let one : Surface.Expr := .lit (.int 1) .unknown
  let two : Surface.Expr := .lit (.int 2) .unknown
  let rhs : Surface.Expr :=
    .letIn [escaping] (.ifThenElse (.var "y" .unknown) one two .unknown) .unknown
  let f : Surface.Binding :=
    .fn (.mk "f" .unknown (.mk [.var "x" .unknown] rhs .unknown) [] .unknown)
  { Surface.Module.empty "M" with decls := [.bind f] }

/-- The type of an identifier of another binder can take up a variable that a group is generalised
over, and then a rigid variable: the group of `y` in the scope of a variable `x` of unknown type,
and the type `(Int -> a) -> Int` that `f` gets without a quantifier. -/
theorem generalised_not_free :
    (let x : Ident := ⟨⟨"x", "M", .value, 1⟩, .mono (.uvar 1)⟩
      let env : Env := { globals := .empty "M", locals := [("x", x)] }
      let r := openedGroup env [escaping] { uvars := 1, uniques := 1 }
      ¬ ∀ i ∈ env.locals, ∀ m ∈ r.1.uvars r.2.subst,
        m ∉ (r.2.subst.apply i.2.scheme.body).uvarOccurrences) ∧
    (run escapingModule []).reports.length = 0 ∧
    ((run escapingModule []).checked.exports.entities.values.filterMap fun
      | .ident i => some i.scheme
      | _ => none) = [⟨[], [], .fn (.fn .int (.var "a")) .int⟩] := by
  decide +kernel

end TypeLens.Check
