import TypeLens.Proofs.Typing.Completeness

/-!
Inference finds principal types: it reports an error exactly if there is no type, and otherwise all
types come from the one that it finds.
-/

namespace TypeLens.Check

open Surface (Expr)
open Typing

/-- Whatever is known of variables is known of those that have come up, in terms of such. -/
structure State.Orderly (s : State) : Prop where
  mono : s.subst.images.Mono
  issued {m : Int} {t : Ty} : s.subst.images.get? m = some t → m ≤ s.uvars
  within {m k : Int} {t : Ty} : s.subst.images.get? m = some t → k ∈ t.uvarOccurrences → k ≤ s.uvars

/-- The types of identifiers mention only variables that have come up. -/
def Locals.Within (n : Nat) (ids : Locals) : Prop :=
  ∀ i ∈ ids, ∀ k : Int, k ∈ i.2.scheme.body.uvarOccurrences → k ≤ n

def Locals.zonked (σ : Subst) (ids : Locals) : Locals :=
  ids.map fun i => (i.1, { i.2 with scheme := .mono (σ.apply i.2.scheme.body) })

variable {s : State} {θ : Assignment}

theorem State.Orderly.respects (hs : s.Orderly) {θ' : Assignment} (h : Agree s.uvars θ θ')
    (hθ : Images.Respects θ s.subst.images) : Images.Respects θ' s.subst.images := by
  intro m t ht
  rw [h m (hs.issued ht), hθ m t ht]
  exact Ty.assigned_congr fun k hk => (h k (hs.within ht hk)).symm

theorem types_zonked (σ : Subst) (ids : Locals) (θ : Assignment) :
    (ids.zonked σ).types θ = ids.types fun m => (σ.apply (.uvar m)).assigned θ := by
  rw [Locals.types, Locals.types, Locals.zonked, List.map_map]
  exact List.map_congr_left fun i _ => congrArg (Prod.mk i.1) (Ty.assigned_substUvars θ _ _)

/-- What variables stand for, at any assignment for those that are left. -/
theorem solves_at (hs : s.subst.images.Mono) (hθ : ∀ m, (θ m).Mono) :
    Solves s fun m => (s.subst.apply (.uvar m)).assigned θ := by
  have happly (t : Ty) : (s.subst.apply t).assigned θ =
      t.assigned fun m => (s.subst.apply (.uvar m)).assigned θ := Ty.assigned_substUvars θ _ t
  have hvar (m : UVar) : (Ty.uvar m).Mono := trivial
  refine ⟨fun m => (Images.mono_apply hs (hvar m)).assigned hθ, ?_⟩
  rw [Images.respects_iff s.subst.acyclic]
  intro t
  have hagain : s.subst.images.apply (s.subst.apply t) = s.subst.apply t := s.subst.apply_apply t
  rw [← happly t, ← happly]
  exact congrArg (Ty.assigned θ) hagain

/-- A state with an assignment that goes with it. -/
def Solves.world (h : Solves s θ) (hs : s.Orderly) : World :=
  ⟨s, θ, hs.mono, h.mono, fun hagree => hs.respects hagree h.respects⟩

theorem Solves.scope (h : Solves s θ) (hs : s.Orderly) {ids : Locals} (hm : ids.Mono)
    (hw : ids.Within s.uvars) : (h.world hs).Scope ids (ids.types θ) := by
  unfold World.Scope Locals.types
  rw [List.forall₂_map_right_iff, List.forall₂_same]
  intro i hi
  refine ⟨rfl, (hm i hi).1, (hm i hi).2, fun θ' hagree => Ty.assigned_congr fun k hk => ?_⟩
  exact hagree k (hw i hi k hk)

variable {env : Env} {e : Expr}

/-- A type of an expression comes from the one that is found, and nothing is reported. -/
theorem infer_of_hasType (hg : env.globals.Closed) (hl : env.locals.Mono) (hs : s.Orderly)
    (hw : env.locals.Within s.uvars) {v : Ty} (hθ : Solves s θ)
    (hv : HasType env.globals (env.locals.types θ) e v) :
    let r := (infer env e).run s
    r.2.errors = s.errors ∧ ∃ θ', (∀ m, (θ' m).Mono) ∧
      (env.locals.zonked r.2.subst).types θ' = env.locals.types θ ∧
      (r.2.subst.apply r.1.2).assigned θ' = v := by
  intro r
  have hscope := hθ.scope hs hl hw
  obtain ⟨w, hle, hw', hr⟩ := complete_infer e env hg (hθ.world hs) _ v hscope hv
  have hstate : w.state = r.2 := hw'
  have hsolves : Solves r.2 w.θ := by
    rw [← hstate]
    exact ⟨w.mono, w.respects fun _ _ => rfl⟩
  have herrors : r.2.errors = s.errors := by
    rw [← hstate, State.errors, hle.reports]
    rfl
  refine ⟨herrors, w.θ, w.mono, ?_, ?_⟩
  · rw [Locals.types, Locals.types, Locals.zonked, List.map_map]
    refine List.map_congr_left fun i hi => congrArg (Prod.mk i.1) ?_
    have hbody : i.2.scheme.body.assigned w.θ = i.2.scheme.body.assigned θ :=
      Ty.assigned_congr fun k hk => hle.agree k (hw i hi k hk)
    exact (hsolves.assigned_apply _).trans hbody
  · exact (hsolves.assigned_apply _).trans hr.assigned

/-- An expression without local bindings, in an environment of monomorphic variables: an error is
reported if and only if it has no type, however the open variables of the environment are chosen.
Without one, the type that is found is a type of the expression whatever its variables stand for,
and every type of the expression is one of these. -/
theorem infer_principal (hg : env.globals.Closed) (hl : env.locals.Mono) (hs : s.Orderly)
    (hw : env.locals.Within s.uvars) (he : LetFree e) :
    let r := (infer env e).run s
    let t := ((zonk r.1.2).run r.2).1
    let ids := env.locals.zonked r.2.subst
    (r.2.errors = s.errors ↔
      ∃ θ v, Solves s θ ∧ HasType env.globals (env.locals.types θ) e v) ∧
    (r.2.errors = s.errors →
      (∀ θ, (∀ m, (θ m).Mono) → HasType env.globals (ids.types θ) e (t.assigned θ)) ∧
      ∀ θ v, Solves s θ → HasType env.globals (env.locals.types θ) e v →
        ∃ θ', (∀ m, (θ' m).Mono) ∧ ids.types θ' = env.locals.types θ ∧ t.assigned θ' = v) := by
  intro r t ids
  have ht : t = r.2.subst.apply r.1.2 := zonk_run_fst _ _
  obtain ⟨hlater, hmono, -, hsound⟩ := sound_infer e env hg hl he (fun _ => True) s hs.mono
  have hat {θ : Assignment} (hr : r.2.errors = s.errors) (hθ : ∀ m, (θ m).Mono) :
      HasType env.globals (ids.types θ) e (t.assigned θ) := by
    have htype := hsound hr _ (solves_at hmono hθ) trivial
    have hassigned : t.assigned θ =
        r.1.2.assigned fun m => (r.2.subst.apply (.uvar m)).assigned θ := by
      rw [ht]
      exact Ty.assigned_substUvars θ _ _
    rw [types_zonked, hassigned]
    exact htype
  refine ⟨⟨fun hr => ?_, fun ⟨θ, v, hθ, hv⟩ => (infer_of_hasType hg hl hs hw hθ hv).1⟩,
    fun hr => ⟨fun θ hθ => hat hr hθ, fun θ v hθ hv => ?_⟩⟩
  · have hvar (m : UVar) : (Ty.uvar m).Mono := trivial
    have hsolves := solves_at hmono hvar
    exact ⟨_, _, hsolves.of_later hlater, hsound hr _ hsolves trivial⟩
  · rw [ht]
    exact (infer_of_hasType hg hl hs hw hθ hv).2

theorem orderly_of_empty (h : s.subst = .empty) : s.Orderly := by
  have hnone (m : UVar) : s.subst.images.get? m = none := by rw [h]; rfl
  refine ⟨h ▸ mono_empty, fun {m t} ht => ?_, fun {m k t} ht => ?_⟩ <;>
    · rw [hnone] at ht
      cases ht

/-- `data Box a = Box a` -/
def boxCon : DataCon :=
  let box : Ty := .app (.con ⟨"Box", "M", .type, 0⟩) (.var "a")
  ⟨⟨"Box", "M", .value, 0⟩, .unknown, ⟨"Box", "M", .type, 0⟩, ⟨["a"], [], .fn (.var "a") box⟩,
    [.var "a"]⟩

def boxGlobals : Globals := (Globals.empty "M").addEntity (.dataCon boxCon)

theorem scheme?_boxGlobals {n : Name} {s : Scheme} (h : boxGlobals.scheme? n = some s) :
    s = boxCon.scheme := by
  by_cases hn : boxCon.name = n
  · subst hn
    exact (Option.some.inj h).symm
  · have hnone : boxGlobals.entity? n = none := if_neg hn
    rw [Globals.scheme?, hnone] at h
    cases h

theorem closed_boxGlobals : boxGlobals.Closed where
  mono h := by
    rw [scheme?_boxGlobals h]
    exact ⟨⟨trivial, trivial⟩, trivial, trivial⟩
  ground h := by
    rw [scheme?_boxGlobals h]
    rfl
  fields {n c} h := by
    have hs : boxGlobals.scheme? n = some c.scheme := by rw [Globals.scheme?, h]
    by_cases hn : boxCon.name = n
    · subst hn
      obtain rfl : boxCon = c := by
        have hsome : some (Entity.dataCon boxCon) = some (.dataCon c) := h
        simpa using hsome
      exact ⟨.app (.con ⟨"Box", "M", .type, 0⟩) (.var "a"), rfl⟩
    · have hnone : boxGlobals.entity? n = none := if_neg hn
      rw [hnone] at h
      cases h
  denotes {x n} h := by
    unfold resolve at h
    by_cases hx : ((.value, "Box") : Namespace × String) = (.value, x)
    · have hlookup : boxGlobals.scope.lookup .value x = [⟨boxCon.name, .unknown⟩] := by
        simp only [Prod.mk.injEq, true_and] at hx
        subst hx
        rfl
      rw [hlookup] at h
      cases h
      rfl
    · have hlookup : boxGlobals.scope.lookup .value x = [] :=
        congrArg (Option.getD · []) (if_neg hx)
      rw [hlookup] at h
      cases h

/-- A variable `f` of unknown type is applied to what is in a box: all types are functions from
boxes. -/
theorem infer_principal_unbox :
    let s : State := { uvars := 1, uniques := 1 }
    let e : Expr := .lambda [.con "Box" [.var "x" .unknown] .unknown]
      (.app (.var "f" .unknown) (.var "x" .unknown) .unknown) .unknown
    let box (t : Ty) : Ty := .app (.con ⟨"Box", "M", .type, 0⟩) t
    (∀ θ : Assignment, (∀ m, (θ m).Mono) →
      HasType boxGlobals [("f", .fn (θ 5) (θ 6))] e (.fn (box (θ 5)) (θ 6))) ∧
    ∀ θ v, Solves s θ → HasType boxGlobals [("f", θ 1)] e v →
      ∃ t u, θ 1 = .fn t u ∧ v = .fn (box t) u := by
  intro s e box
  let f : Typed.Ident := ⟨⟨"f", "M", .value, 1⟩, .mono (.uvar 1)⟩
  let env : Env := { globals := boxGlobals, locals := [("f", f)] }
  have hl : env.locals.Mono := List.forall_mem_singleton.2 ⟨rfl, trivial⟩
  have hs : s.Orderly := orderly_of_empty rfl
  have hw : env.locals.Within s.uvars := by
    refine List.forall_mem_singleton.2 fun k hk => ?_
    obtain rfl : k = 1 := List.mem_singleton.1 hk
    exact Int.le_refl _
  have he : LetFree e := ⟨trivial, trivial⟩
  obtain ⟨-, hprincipal⟩ := infer_principal closed_boxGlobals hl hs hw he
  have hnone : ((infer env e).run s).2.errors = s.errors := by decide +kernel
  have ht : ((zonk ((infer env e).run s).1.2).run ((infer env e).run s).2).1 =
      .fn (box (.uvar 5)) (.uvar 6) := by decide +kernel
  have hids : env.locals.zonked ((infer env e).run s).2.subst =
      [("f", ⟨f.name, .mono (.fn (.uvar 5) (.uvar 6))⟩)] := by decide +kernel
  obtain ⟨hall, hfactors⟩ := hprincipal hnone
  rw [ht, hids] at hall hfactors
  refine ⟨hall, fun θ v hθ hv => ?_⟩
  obtain ⟨θ', -, htypes, hv'⟩ := hfactors θ v hθ hv
  refine ⟨θ' 5, θ' 6, ?_, hv'.symm⟩
  have hf : ("f", .fn (θ' 5) (θ' 6)) = ("f", θ 1) := List.head_eq_of_cons_eq htypes
  exact (congrArg Prod.snd hf).symm

end TypeLens.Check
