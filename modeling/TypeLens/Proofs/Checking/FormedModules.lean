import TypeLens.Proofs.Checking.FormedBindings
import TypeLens.Proofs.Checking.FormedDeclarations

/-!
The types of a whole module have their arguments, and so do those that it makes known.
-/

namespace TypeLens.Check

variable {R : Arities} {lax : Prop} {m : Surface.Module} {imports : List Exports} {d : Declaring}

theorem formed_initial (hi : ∀ x ∈ imports, x.Formed R) :
    (Declaring.initial m imports).Formed R m := by
  let J (g : Globals) : Prop := ∃ exports, Declaring.Formed R m { globals := g, exports }
  have hempty : J (.empty m.name) := ⟨{ module := m.name }, {
    module := rfl
    keyed := fun _ h => absurd h List.not_mem_nil
    scope := fun _ _ h => absurd h List.not_mem_nil
    globals := ⟨fun _ h => absurd h List.not_mem_nil, fun _ h => absurd h List.not_mem_nil⟩
    exports := ⟨fun _ h => absurd h List.not_mem_nil, fun _ h => absurd h List.not_mem_nil⟩
    signatures := fun _ h => absurd h List.not_mem_nil
    reports := fun _ h => absurd h List.not_mem_nil }⟩
  obtain ⟨exports, h⟩ : J (Declaring.initial m imports).globals := by
    refine initial_of_imported (fun x hx e he g ⟨_, hg⟩ => ?_) (fun x hx i hxi g ⟨_, hg⟩ => ?_)
      (fun g _ ⟨_, hg⟩ => ⟨_, { hg with globals := ⟨hg.globals.entities, hg.globals.instances⟩ }⟩)
      hempty
    · obtain ⟨p, hp, rfl⟩ := List.mem_map.1 he
      obtain ⟨hformed, htype⟩ := (hi x hx).entities p hp
      exact ⟨_, hg.addEntity hformed htype⟩
    · exact ⟨_, hg.addInstance ((hi x hx).instances i hxi)⟩
  exact { h with
    exports := ⟨fun _ h => absurd h List.not_mem_nil, fun _ h => absurd h List.not_mem_nil⟩ }

theorem formed_declared (hR : Permits R lax m) (hi : ∀ x ∈ imports, x.Formed R)
    (htrust : (declared m imports).2.Trusted lax) :
    (declared m imports).2.Formed R m ∧ ∀ p ∈ (declared m imports).1, p.1.Formed R :=
  (Declare.shapes_all (H := True) hR (.initial m imports)).2 htrust trivial (formed_initial hi)

-- Binding groups

theorem Declaring.Formed.env (hd : d.Formed R m) : Env.Formed R { globals := d.globals } :=
  ⟨hd.globals, fun _ h => absurd h List.not_mem_nil⟩

theorem formed_addIdents (hd : d.Formed R m) {ids : Bound} (hids : ids.Formed R)
    (hnames : ∀ i ∈ ids, i.2.name = topName m.name .value i.1) :
    (addIdents d ids).Formed R m := by
  induction ids generalizing d with
  | nil => exact hd
  | cons i ids ih =>
    obtain ⟨hi, hids⟩ := List.forall_mem_cons.1 hids
    obtain ⟨hname, hnames⟩ := List.forall_mem_cons.1 hnames
    refine ih (hd.addEntity hi fun hspace => ?_) hids hnames
    have hvalue : i.2.name.space = .value := by rw [hname]; rfl
    rw [show i.2.name.space = .type from hspace] at hvalue
    cases hvalue

section

variable (hR : R.Builtin)
include hR

theorem forms_topGroup (hd : d.Formed R m) {g : List Job} (h : ∀ j ∈ g, j.Forming R) :
    Forms R (topGroup d g) fun r => r.2.Formed R m := by
  by_cases howns : ∀ j ∈ g, d.owns j = true
  · rcases topGroup_of_owns howns with ⟨j, s, rfl, hs, heq⟩ | ⟨-, heq⟩
    · rw [heq]
      have hscheme : s.Formed R := hd.signatures _ (Table.mem_of_get? hs)
      have hj : j.Forming R := h _ (List.mem_singleton_self _)
      exact .bind (forms_checkSigned hR hd.env hscheme hj) fun _ _ => .pure hd
    · rw [heq, hd.module]
      have hnames (occ : String) :
          Forms R (return topName m.name .value occ : CheckM Name) fun _ => True := .pure trivial
      have hgroup := forms_inferGroup hR hd.env hnames h
      refine .bind (P := fun r => r.2.Formed R ∧ ∀ i ∈ r.2, i.2.name = topName m.name .value i.1)
        (fun pending s hs => ?_) fun r hr => .pure (formed_addIdents hd hr.1 hr.2)
      obtain ⟨hs', hr⟩ := hgroup pending s hs
      exact ⟨hs', hr, (returns_binders _ m.name g s).1⟩
  · rw [topGroup_of_not_owns howns]
    exact .pure hd

theorem forms_topGroups (hd : d.Formed R m) {gs : List (List Job)}
    (h : ∀ g ∈ gs, ∀ j ∈ g, j.Forming R) : Forms R (topGroups d gs) fun r => r.2.Formed R m := by
  induction gs generalizing d with
  | nil => exact .pure hd
  | cons g gs ih =>
    refine .bind (forms_topGroup hR hd (h g (List.mem_cons_self ..))) fun r hr => ?_
    exact .bind (ih hr fun g' hg' => h g' (List.mem_cons_of_mem _ hg')) fun _ hr' => .pure hr'

-- Instances

omit hR in
theorem formed_methodScheme {tyvar : String} {i : Instance} (hi : i.Formed R) {s : Scheme}
    (hs : s.Formed R) : (methodScheme tyvar i s).Formed R := by
  refine ⟨hs.body.at _ (List.forall_mem_cons.2 ⟨hi.headTy, ?_⟩), hi.context⟩
  exact List.forall_mem_map.2 fun _ _ => rfl

theorem forms_methodBinds {env : Env} (henv : env.Formed R) {c : TypeClass}
    (hc : ∀ x ∈ c.methods, x.scheme.Formed R) {i : Instance} (hi : i.Formed R) (seen : List String)
    {js : List FunJob} (h : ∀ j ∈ js, j.Forming R) :
    Forms R (methodBinds env c i seen js) fun _ => True := by
  induction js generalizing seen with
  | nil => exact .pure trivial
  | cons j js ih =>
    have ih (seen : List String) := ih seen fun j hj => h j (List.mem_cons_of_mem _ hj)
    unfold methodBinds
    split
    · exact .bind (forms_report (p := .notAMethod ..) trivial _) fun _ _ => ih _
    next x hx =>
    split
    · exact .bind (forms_report (p := .definedTwice _) trivial _) fun _ _ => ih _
    · have hmethod : x.scheme.Formed R := hc x (List.mem_of_find?_eq_some hx)
      refine .bind (forms_localName _ _) fun n _ => ?_
      refine .bind (forms_checkSigned hR henv (formed_methodScheme hi hmethod)
        (h j (List.mem_cons_self ..))) fun b _ => ?_
      exact .bind (ih _) fun _ _ => .pure trivial

theorem forms_instanceBinds {g : Globals} (hg : g.Formed R) {d : Instance × Surface.InstanceDecl}
    (hd : d.1.Formed R) : Forms R (instanceBinds g d) fun _ => True := by
  unfold instanceBinds
  split
  · next c hc =>
    have hmethods : ∀ x ∈ c.methods, x.scheme.Formed R := (hg.of_entity? hc).2
    refine .bind (forms_methodBinds hR ⟨hg, fun _ h => absurd h List.not_mem_nil⟩ hmethods hd []
      fun j hj => ?_) fun r _ => ?_
    · obtain ⟨b, -, rfl⟩ := List.mem_map.1 hj
      exact forming_funJob hR b
    · exact .bind (.forM fun x _ => forms_reportIf _ (p := .missingMethod _) trivial _) fun _ _ =>
        .pure trivial
  · exact .pure trivial

theorem forms_binds (hd : d.Formed R m) {instances : List (Instance × Surface.InstanceDecl)}
    (hinstances : ∀ p ∈ instances, p.1.Formed R) :
    Forms R (binds d instances m) fun r => r.2.Formed R m := by
  refine .bind (forms_topGroups hR hd fun g hg j hj => ?_) fun r hr => ?_
  · obtain ⟨y, hy, rfl⟩ := Surface.mem_of_mem_groupsOf hg hj
    exact forming_jobs hR m.bindings y hy
  · exact .bind (.mapM fun p hp => forms_instanceBinds hR hr.globals (hinstances p hp)) fun _ _ =>
      .pure hr

end

/-- Whatever is found out about the types of a module, they have their arguments. -/
theorem formed_elaborate (hR : Permits R lax m) (hi : ∀ x ∈ imports, x.Formed R)
    (htrust : (declared m imports).2.Trusted lax) :
    (elaborate m imports).state.Formed R [] ∧ (elaborate m imports).declared.Formed R m := by
  obtain ⟨hd, hinstances⟩ := formed_declared hR hi htrust
  refine forms_binds hR.builtin hd hinstances [] { reports := (declared m imports).2.reports } ?_
  exact ⟨Subst.formed_empty, hd.reports, [], rfl, fun _ h => absurd h List.not_mem_nil,
    fun _ h => absurd h List.not_mem_nil, fun _ h => absurd h List.not_mem_nil,
    fun _ h => absurd h List.not_mem_nil, fun _ h => absurd h List.not_mem_nil⟩

end TypeLens.Check
