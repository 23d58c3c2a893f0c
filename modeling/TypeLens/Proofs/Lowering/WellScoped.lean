import TypeLens.Proofs.Checking.TopBindings

/-!
Scopes of what is lowered. Lowering puts the bindings of a group inside each other in the order in
which they are written, so local names are in scope where groups have no binding that takes what a
later one defines.
-/

namespace TypeLens

namespace Typed

instance Bind.decidableOrdered : DecidablePred Bind.Ordered := fun bs =>
  decidable_of_iff
    ((bs.Pairwise fun b b' => ∀ x ∈ b'.names, x.IsLocal → x ∉ b.free .inOrder) ∧
      ∀ b ∈ bs, ∀ x ∈ b.names, x.IsLocal → x ∉ b.free .inOrder)
    ⟨fun h => ⟨h.1, h.2⟩, fun h => ⟨h.later, h.own⟩⟩

end Typed

namespace Check

/-- In a module that is accepted, what a binding is lowered to is well-scoped if the groups in it
are in order. -/
theorem wellScoped_of_ordered {m : Surface.Module} {imports : List Exports} {checked : Checked}
    (hi : ∀ x ∈ imports, Compiled x) (hm : module m imports = .ok checked) {c : Core.Context}
    (hown : ∀ n e, checked.globals.entity? n = some e → c.entity? n = some e) :
    ∀ b ∈ checked.binds, (∀ bs ∈ b.groups, Typed.Bind.Ordered bs) →
      ∀ out, Core.lowerBind c b = .ok out → Core.WellScoped out := by
  intro b hb hordered out hout
  let a := (elaborate m imports).answers
  obtain ⟨hno, hbinds⟩ := of_module_eq_ok hm
  rw [hbinds, binds_eq_map] at hb
  obtain ⟨b₀, hb₀, rfl⟩ := List.mem_map.1 hb
  have hscoped := bindScoped_elaborate hi hm hown b₀ hb₀
  have hfits : Core.Fits c (a.bind b₀).nodes := by
    rw [Typed.nodes_bind]
    exact hscoped.fits.resolve
  have hfree : ∀ x ∈ (a.bind b₀).free .inOrder, ¬ x.IsLocal := fun x hx hl =>
    List.not_mem_nil (hscoped.free x (Typed.free_together_bind hl _ hordered hx) hl)
  have hexported := exported_of_module hno b₀ hb₀
  cases b₀ with
  | fn | pat => exact hexported.elim
  | abs tvs ds xs bs l => exact Core.wellScoped_of_free hfits hfree hout

/-- What lowering knows of a module that imports nothing is what the module makes known. -/
theorem entity?_context {m : Surface.Module} {n : Name} {e : Entity}
    (h : (run m []).checked.globals.entity? n = some e) :
    (elaborate m []).context.entity? n = some e := h

/-- The module with `f x = let { g y = g y; h y = g y } in h x`. -/
def nestedModule : Surface.Module :=
  let call (f x : String) : Surface.Expr := .app (.var f .unknown) (.var x .unknown) .unknown
  let g := function "g" "y" (call "g" "y")
  let h := function "h" "y" (call "g" "y")
  { Surface.Module.empty "M" with
    decls := [.bind (function "f" "x" (.letIn [g, h] (call "h" "x") .unknown))] }

/-- A function that takes itself and one that takes another are groups in order. -/
theorem wellScoped_of_nestedModule :
    let checked := (run nestedModule []).checked
    let c := (elaborate nestedModule []).context
    module nestedModule [] = .ok checked ∧
    (∀ b ∈ checked.binds, ∀ bs ∈ b.groups, Typed.Bind.Ordered bs) ∧
    (checked.binds.map fun b => (Core.lowerBind c b).isOk) = [true] ∧
    ∀ b ∈ checked.binds, ∀ out, Core.lowerBind c b = .ok out → Core.WellScoped out := by
  intro checked c
  have hm : module nestedModule [] = .ok checked := module_eq_ok (by decide +kernel)
  have hordered : ∀ b ∈ checked.binds, ∀ bs ∈ b.groups, Typed.Bind.Ordered bs := by
    decide +kernel
  refine ⟨hm, hordered, by decide +kernel, fun b hb => ?_⟩
  exact wellScoped_of_ordered (by simp) hm (fun _ _ => entity?_context) b hb (hordered b hb)

/-- The module with `f x = let { g y = h y; h y = g y } in g x`. -/
def crossedModule : Surface.Module :=
  let call (f x : String) : Surface.Expr := .app (.var f .unknown) (.var x .unknown) .unknown
  let g := function "g" "y" (call "h" "y")
  let h := function "h" "y" (call "g" "y")
  { Surface.Module.empty "M" with
    decls := [.bind (function "f" "x" (.letIn [g, h] (call "g" "x") .unknown))] }

/-- Local functions that take each other are not lowered to well-scoped definitions: in that of `g`,
the name of `h` is not bound. -/
theorem not_wellScoped_of_crossedModule :
    let checked := (run crossedModule []).checked
    let c := (elaborate crossedModule []).context
    module crossedModule [] = .ok checked ∧
    ∃ b ∈ checked.binds, ∃ out, Core.lowerBind c b = .ok out ∧ ¬ Core.WellScoped out := by
  intro checked c
  have hm : module crossedModule [] = .ok checked := module_eq_ok (by decide +kernel)
  have hany : (checked.binds.any fun b => match Core.lowerBind c b with
      | .ok out => !decide (Core.WellScoped out)
      | .error _ => false) = true := by decide +kernel
  obtain ⟨b, hb, hnot⟩ := List.any_eq_true.1 hany
  refine ⟨hm, b, hb, ?_⟩
  split at hnot
  · next out hout => exact ⟨out, hout, by simpa using hnot⟩
  · cases hnot

end Check

end TypeLens
