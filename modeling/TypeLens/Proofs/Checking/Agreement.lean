import TypeLens.Proofs.Checking.Recovery
import TypeLens.Proofs.Typed.Evidence

/-!
In modules that are accepted, types that are read off core terms against those that checking found.
-/

namespace TypeLens.Check

open Typed (Answers exprsOf)

/-- Where the elaboration of a module ends, with what lowering knows of the module. -/
def Elaboration.ending (e : Elaboration) (c : Core.Context) : Ending :=
  ⟨e.answers, e.state.inferred, c⟩

theorem of_module_eq_ok {m : Surface.Module} {imports : List Exports} {checked : Checked}
    (h : module m imports = .ok checked) :
    (∀ r ∈ (elaborate m imports).state.reports, r.isError = false) ∧
      checked.binds = (elaborate m imports).answers.binds (elaborate m imports).binds := by
  unfold module at h
  dsimp only at h
  split at h
  · cases h
  · next hno =>
    cases h
    refine ⟨fun r hr => ?_, rfl⟩
    rw [Bool.not_eq_true, List.any_eq_false] at hno
    exact Bool.eq_false_iff.2 (hno r (List.mem_reverse.2 hr))

theorem eq_of_module_eq_ok {m : Surface.Module} {imports : List Exports} {checked : Checked}
    (h : module m imports = .ok checked) : checked = (run m imports).checked := by
  unfold module at h
  dsimp only at h
  split at h
  · cases h
  · exact (Except.ok.inj h).symm

/-- In a module that is accepted, an expression is one whose type was found, or the bare name inside
an occurrence. -/
theorem noted_of_module_eq_ok {m : Surface.Module} {imports : List Exports} {checked : Checked}
    (h : module m imports = .ok checked) :
    ∀ y ∈ exprsOf (Typed.Bind.nodesOf checked.binds),
      (∃ p ∈ (elaborate m imports).state.inferred, y = (elaborate m imports).answers.expr p.1) ∨
        ∃ h, y = .head h .unknown := by
  obtain ⟨hno, hbinds⟩ := of_module_eq_ok h
  let x : Finish := .plain (elaborate m imports).state.subst (elaborate m imports).state.inferred
  have hclosed : x.Closed := Finish.plain_closed
  obtain ⟨-, hnoted⟩ := (Finish.yields_binds (Finish.bindRule_noted hclosed) hclosed (H := True)
    (Finish.plain_knows _) (m := m) nofun nofun).2 _ ⟨.refl _, hno, fun _ he => he⟩ trivial
  rw [hbinds]
  exact x.noted_of_accounts _ hnoted

theorem before_ending {m : Surface.Module} {imports : List Exports}
    (h : ∀ r ∈ (elaborate m imports).state.reports, r.isError = false) (c : Core.Context)
    (R : Ty → Ty → Prop) (K : DataCon → Prop) :
    (((elaborate m imports).ending c).finish R K).Before (elaborate m imports).state := by
  have himages : (((elaborate m imports).ending c).finish R K).subst =
      (elaborate m imports).state.subst := Typed.images_ofSolutions _ _
  exact ⟨himages ▸ .refl _, h, fun e he => he⟩

theorem wellShaped_elaborate (m : Surface.Module) (imports : List Exports) :
    ∀ e ∈ (elaborate m imports).state.inferred, WellShaped e :=
  (evolves_binds _ _ m _).noted fun _ h => absurd h List.not_mem_nil

theorem module_eq_ok {m : Surface.Module} {imports : List Exports}
    (h : (run m imports).reports.any (·.isError) = false) :
    module m imports = .ok (run m imports).checked := by
  simp [module, h]

theorem run_of_lowerExpr {c : Core.Context} {e : Typed.Expr} {term : Core.Term}
    (h : Core.lowerExpr c e = .ok term) : ∃ n, (Core.Lower.expr c e).run 0 = .ok (term, n) := by
  unfold Core.lowerExpr at h
  cases hr : (Core.Lower.expr c e).run 0 with
  | error err => simp [hr, bind, Except.bind] at h
  | ok r =>
    obtain ⟨term', n⟩ := r
    cases ht : term'.type with
    | error err => simp [hr, ht, bind, Except.bind] at h
    | ok t =>
      obtain rfl : term' = term := by simpa [hr, ht, bind, Except.bind, pure, Except.pure] using h
      exact ⟨n, rfl⟩

/-- What lowering knows of a module that imports nothing. -/
def Elaboration.context (e : Elaboration) : Core.Context :=
  ⟨e.declared.globals.module, e.declared.globals.scope, e.declared.globals.entity?⟩

/-- In a module that is accepted, an expression has the type that was found for it or is a name
inside an occurrence with type arguments. Types that are read off core terms are those that were
found, for all expressions that have core terms, if and only if no occurrence captures a
variable. -/
theorem recovered_iff_sound {m : Surface.Module} {imports : List Exports} {checked : Checked}
    (hm : module m imports = .ok checked) {c : Core.Context} (hc : c.KnowsBuiltins) :
    let e := elaborate m imports
    (∀ y ∈ exprsOf (Typed.Bind.nodesOf checked.binds),
      (∃ p ∈ e.state.inferred, y = e.answers.expr p.1) ∨ ∃ h, y = .head h .unknown) ∧
    ((∀ p ∈ e.state.inferred, ∀ term, Core.lowerExpr c (e.answers.expr p.1) = .ok term →
      term.type = .ok (e.answers.ty p.2)) ↔ (e.ending c).Sound) := by
  intro e
  obtain ⟨hno, -⟩ := of_module_eq_ok hm
  refine ⟨noted_of_module_eq_ok hm, fun h p hp hcap => ?_, fun hs p hp term hterm => ?_⟩
  · obtain ⟨e', t⟩ := p
    have hw := wellShaped_elaborate m imports _ hp
    cases e' with
    | inst h' ts ds l =>
      obtain ⟨term, hterm, hne⟩ := Ending.exists_type_ne_of_captures hw hcap
      exact hne (h _ hp term hterm)
    | _ => exact hcap
  · let K : DataCon → Prop := fun _ => True
    have hclosed : ((e.ending c).finish (· = ·) K).Closed :=
      Ending.finish_closed Core.functional_eq hc.cons hc.nil fun h ts ds l t hmem hw =>
        Ending.lowersAt_occurrence hw (hs _ hmem)
    obtain ⟨hruns, -⟩ := (Finish.yields_binds (Finish.bindRule_noted hclosed) hclosed (H := True)
      (fun _ _ _ => trivial) (m := m) nofun nofun).2 _ (before_ending hno c _ K) trivial
    obtain ⟨n, hn⟩ := run_of_lowerExpr hterm
    refine Core.hasType_eq_iff.1 (hruns.noted (fun _ h => absurd h List.not_mem_nil) p hp ?_ 0 _ hn)
    exact fun _ _ _ _ _ => Core.hasType_eq_iff.2 (Core.type_patError hc _)

def function (name : String) (arg : String) (rhs : Surface.Expr) : Surface.Binding :=
  .fn (.mk name .unknown (.mk [.var arg .unknown] rhs .unknown) [] .unknown)

/-- The module with `f x = let { g y = y } in g x`. -/
def harmlessModule : Surface.Module :=
  let g := function "g" "y" (.var "y" .unknown)
  let use : Surface.Expr := .app (.var "g" .unknown) (.var "x" .unknown) .unknown
  { Surface.Module.empty "M" with decls := [.bind (function "f" "x" (.letIn [g] use .unknown))] }

theorem knowsBuiltins_harmlessModule :
    (elaborate harmlessModule []).context.KnowsBuiltins :=
  Core.Context.knowsBuiltins_of_isNone (by decide +kernel) (by decide +kernel) (by decide +kernel)

theorem sound_harmlessModule :
    ((elaborate harmlessModule []).ending (elaborate harmlessModule []).context).Sound := by
  decide +kernel

/-- The variable `x` that is rigid in the end is not one that `g` quantifies over. -/
theorem recovered_of_harmlessModule :
    module harmlessModule [] = .ok (run harmlessModule []).checked ∧
    (elaborate harmlessModule []).context.KnowsBuiltins ∧
    ∀ p ∈ (elaborate harmlessModule []).state.inferred, ∀ term,
      Core.lowerExpr (elaborate harmlessModule []).context
        ((elaborate harmlessModule []).answers.expr p.1) = .ok term →
      term.type = .ok ((elaborate harmlessModule []).answers.ty p.2) := by
  have hm : module harmlessModule [] = .ok (run harmlessModule []).checked :=
    module_eq_ok (by decide +kernel)
  refine ⟨hm, knowsBuiltins_harmlessModule, ?_⟩
  obtain ⟨-, hiff⟩ := recovered_iff_sound hm knowsBuiltins_harmlessModule
  exact hiff.2 sound_harmlessModule

/-- The module with `data P a b = P a b` and `f x = let { g y = P x y } in g 1`. -/
def capturingModule : Surface.Module :=
  let tyvar (v : String) : Surface.TypeExpr := .var v .unknown
  let var (v : String) : Surface.Expr := .var v .unknown
  let app (f a : Surface.Expr) : Surface.Expr := .app f a .unknown
  let pair : Surface.DataDecl :=
    ⟨"P", ["a", "b"], [⟨"P", [tyvar "a", tyvar "b"], .unknown⟩], .unknown, .unknown⟩
  let g := function "g" "y" (app (app (.con "P" .unknown) (var "x")) (var "y"))
  let body := app (var "g") (.lit (.int 1) .unknown)
  let f := function "f" "x" (.letIn [g] body .unknown)
  { Surface.Module.empty "M" with decls := [.data pair, .bind f] }

/-- The type that is read off the core term of an expression, with the one that was found. -/
def Ending.types (x : Ending) (p : Inferred) : Option Ty × Ty :=
  ((Core.typeOfExpr x.core (x.answers.expr p.1)).toOption, x.answers.ty p.2)

/-- Types that are read off core terms need not be those that were found: `g` quantifies over `a`,
the variable that the type of `x` becomes later. -/
theorem recovered_ne_inferred :
    let e := elaborate capturingModule []
    let pair (t u : Ty) : Ty := .conApp ⟨"P", "M", .type, 0⟩ [t, u]
    (run capturingModule []).reports.length = 0 ∧
    (e.state.inferred.filterMap fun p => match p.1 with
      | .letIn .. => some ((e.ending e.context).types p)
      | _ => none) = [(some (pair .int .int), pair (.var "a") .int)] := by
  decide +kernel

end TypeLens.Check
