import TypeLens.Proofs.Checking.Coherence
import TypeLens.Proofs.Checking.Places
import Mathlib.Data.List.Pairwise

/-!
Spans of a module nest, and those of its typed tree are nested or apart.
-/

namespace TypeLens

namespace Check

open Typed (Bind Fills Node)

-- Top-level bindings

theorem nodesOf_append (bs bs' : List Bind) :
    Bind.nodesOf (bs ++ bs') = Bind.nodesOf bs ++ Bind.nodesOf bs' := by
  rw [Typed.nodesOf_binds_eq, List.map_append, List.flatMap_append, ← Typed.nodesOf_binds_eq,
    ← Typed.nodesOf_binds_eq]

theorem nodesOf_flatten (bss : List (List Bind)) :
    Bind.nodesOf bss.flatten = bss.flatMap Bind.nodesOf := by
  induction bss with
  | nil => rfl
  | cons bs bss ih => rw [List.flatten_cons, nodesOf_append, ih, List.flatMap_cons]

theorem nodesOf_singleton (b : Bind) : Bind.nodesOf [b] = b.nodes := by
  rw [Typed.nodesOf_binds_eq, List.map_singleton, List.flatMap_singleton]
  rfl

/-- A group stands where its bindings stand, unless it is left out. -/
theorem fills_topGroup {g : List Job} (h : Spread g) (d : Declaring) :
    Returns (topGroup d g) fun r => Fills (g.map Job.loc) (Bind.nodesOf r.1) := by
  by_cases howns : ∀ j ∈ g, d.owns j = true
  · rcases topGroup_of_owns howns with ⟨j, s, rfl, -, heq⟩ | ⟨-, heq⟩
    · have hj : j.Stands := h.stands (.fn j) (List.mem_singleton.2 rfl)
      rw [heq]
      refine .bind (fills_checkSigned hj _) fun b hb => .pure ?_
      rw [nodesOf_singleton]
      exact hb
    · rw [heq]
      refine .bind (fills_inferGroup h _) fun r hr => .pure ?_
      rw [nodesOf_singleton]
      exact hr
  · rw [topGroup_of_not_owns howns]
    exact .pure (.nil _)

theorem fills_topGroups {gs : List (List Job)} (h : Spread gs.flatten) (d : Declaring) :
    Returns (topGroups d gs) fun r => Fills (gs.flatten.map Job.loc) (Bind.nodesOf r.1) := by
  induction gs generalizing d with
  | nil => exact .pure (.nil _)
  | cons g gs ih =>
    rw [List.flatten_cons] at h
    refine .bind (fills_topGroup (h.sublist (List.sublist_append_left ..)) d) fun r hr => ?_
    refine .bind (ih (h.sublist (List.sublist_append_right ..)) r.2) fun r' hr' => .pure ?_
    rw [nodesOf_append, List.flatten_cons, List.map_append]
    refine hr.append hr' (List.forall_mem_map.2 fun j hj => List.forall_mem_map.2 fun j' hj' => ?_)
    exact (List.pairwise_append.1 h.apart).2.2 j hj j' hj'

-- Methods

/-- Methods stand where they are bound; some may be left out. -/
theorem fills_methodBinds {js : List FunJob} (h : ∀ j ∈ js, j.Stands)
    (horder : js.Pairwise fun j j' => j.loc.before j'.loc) (env : Env) (c : TypeClass)
    (i : Instance) (seen : List String) :
    Returns (methodBinds env c i seen js) fun r =>
      Fills (js.map FunJob.loc) (Bind.nodesOf r.1) := by
  induction js generalizing seen with
  | nil => exact .pure (.nil _)
  | cons j js ih =>
    obtain ⟨hj, hjs⟩ := List.forall_mem_cons.1 h
    obtain ⟨hfirst, hrest⟩ := List.pairwise_cons.1 horder
    have ih (seen : List String) := ih hjs hrest seen
    have hskip (seen : List String) : Returns (methodBinds env c i seen js) fun r =>
        Fills ((j :: js).map FunJob.loc) (Bind.nodesOf r.1) :=
      fun s => (ih seen s).mono (List.subset_cons_self ..)
    unfold methodBinds
    split
    · exact .skip fun _ => hskip seen
    split
    · exact .skip fun _ => hskip seen
    · refine .skip fun n => .bind (fills_checkSigned hj _) fun b hb => ?_
      refine .bind (ih _) fun r hr => .pure (hb.append hr ?_)
      rw [List.forall_mem_singleton, List.forall_mem_map]
      exact fun j' hj' => .inl (hfirst j' hj')

theorem fills_instanceBinds {i : Surface.InstanceDecl} (h : (Surface.Decl.inst i).outline.Nests)
    (g : Globals) (x : Instance) :
    Returns (instanceBinds g (x, i)) fun bs => Fills [i.loc] (Bind.nodesOf bs) := by
  have horder : Outline.InOrder (i.binds.map Surface.FunBind.outline) :=
    h.parts_inOrder.sublist
      ((List.sublist_cons_self ..).trans (List.sublist_append_right ..))
  have hlocs : (i.binds.map funJob).map FunJob.loc =
      (i.binds.map Surface.FunBind.outline).map Outline.loc := by
    rw [List.map_map, List.map_map]
    exact List.map_congr_left fun b _ => loc_funJob b
  have hstands : ∀ j ∈ i.binds.map funJob, j.Stands := List.forall_mem_map.2 fun b hb =>
    stands_funJob b (horder.nests _ (List.mem_map_of_mem hb))
  have hwithin : ∀ s ∈ (i.binds.map funJob).map FunJob.loc, s.within i.loc := by
    rw [hlocs]
    refine List.forall_mem_map.2 fun o ho => h.within o ?_
    exact List.mem_append_right _ (List.mem_cons_of_mem _ ho)
  unfold instanceBinds
  split
  · next c _ =>
    refine .bind (fills_methodBinds hstands (horder.pairwise hlocs) _ c x []) fun r hr => ?_
    exact .skip fun _ => .pure (hr.widen_singleton hwithin)
  · exact .pure (.nil _)

-- Declarations

theorem sublist_bindings (m : Surface.Module) :
    (m.bindings.map Surface.Decl.bind).Sublist m.decls := by
  unfold Surface.Module.bindings
  induction m.decls with
  | nil => exact .slnil
  | cons d ds ih =>
    cases d with
    | bind b => exact ih.cons_cons _
    | _ => exact ih.cons _

section

variable {m : Surface.Module} (h : m.Nests)
include h

theorem inOrder_decls : Outline.InOrder (m.decls.map Surface.Decl.outline) :=
  Outline.InOrder.sublist ⟨h.nests, h.inOrder⟩ (List.sublist_append_right ..)

/-- Different declarations are apart. -/
theorem apart_decls {d d' : Surface.Decl} (hd : d ∈ m.decls) (hd' : d' ∈ m.decls) (hne : d ≠ d') :
    d.outline.loc.Apart d'.outline.loc := by
  let R (d d' : Surface.Decl) : Prop := d.outline.loc.Apart d'.outline.loc
  have hsymm : Std.Symm R := ⟨fun _ _ => Span.Apart.symm⟩
  have hpairwise : m.decls.Pairwise R :=
    (List.pairwise_map.1 (inOrder_decls h).inOrder).imp .inl
  exact hpairwise.forall hd hd' hne

theorem spread_bindings : Spread ((jobs m.bindings).map (·.2)) := by
  have horder : Outline.InOrder (Surface.Binding.outlines m.bindings) := by
    rw [Surface.Binding.outlines_eq]
    have hsublist := (sublist_bindings m).map Surface.Decl.outline
    rw [List.map_map] at hsublist
    exact (inOrder_decls h).sublist hsublist
  exact ⟨List.forall_mem_map.2 (stands_jobs m.bindings horder.nests),
    (horder.pairwise (loc_jobs m.bindings)).imp .inl⟩

/-- The bindings of a module stand where they are declared, and methods in their instances. -/
theorem laminar_binds (imports : List Exports) (d : Declaring) :
    Returns (binds d (declared m imports).1 m) fun r =>
      Span.Laminar (Typed.places (Bind.nodesOf r.1)) := by
  have hsublist := sublist_declared m imports
  generalize (declared m imports).1 = is at hsublist
  have hmem {x : Instance × Surface.InstanceDecl} (hx : x ∈ is) : .inst x.2 ∈ m.decls :=
    hsublist.subset (List.mem_map_of_mem hx)
  have hinst : ∀ x ∈ is, (Surface.Decl.inst x.2).outline.Nests := fun x hx =>
    (inOrder_decls h).nests _ (List.mem_map_of_mem (hmem hx))
  have hapart : is.Pairwise fun x x' => x.2.loc.Apart x'.2.loc := by
    have hplaces := (inOrder_decls h).inOrder.sublist (hsublist.map Surface.Decl.outline)
    rw [List.map_map] at hplaces
    exact (List.pairwise_map.1 hplaces).imp .inl
  let groups := Surface.groupsOf (jobs m.bindings) d.signatures.keys
  have hperm : groups.flatten.Perm ((jobs m.bindings).map (·.2)) :=
    Surface.flatten_groupsOf_perm (jobs m.bindings) _
  refine .bind (fills_topGroups ((spread_bindings h).perm hperm) d) fun top htop => ?_
  refine .bind (Returns.mapM fun x hx => fills_instanceBinds (hinst x hx) _ x.1) ?_
  intro methods hmethods
  have htop' : Fills ((Surface.Binding.outlines m.bindings).map Outline.loc)
      (Bind.nodesOf top.1) := by
    rw [← loc_jobs]
    exact htop.mono (List.map_subset _ hperm.subset)
  have hmethods' : Fills (is.map (·.2.loc)) (Bind.nodesOf methods.flatten) := by
    rw [nodesOf_flatten]
    exact .flatMap hmethods hapart
  refine .pure ?_
  rw [nodesOf_append]
  refine (htop'.append hmethods' ?_).laminar
  rw [Surface.Binding.outlines_eq, List.map_map]
  refine List.forall_mem_map.2 fun b hb => List.forall_mem_map.2 fun x hx => ?_
  have hb' : Surface.Decl.bind b ∈ m.decls :=
    (sublist_bindings m).subset (List.mem_map_of_mem hb)
  exact apart_decls h hb' (hmem hx) (by simp)

end

-- The final tree

/-- What unification variables stand for has no part in where a node is. -/
theorem place?_node (a : Typed.Answers) (n : Node) : (a.node n).place? = n.place? := by
  cases n with
  | bind b => cases b <;> rfl
  | expr e => cases e <;> rfl
  | pat p => cases p <;> rfl
  | row m => cases m; rfl
  | group g => rfl

theorem places_node (a : Typed.Answers) (ns : List Node) :
    Typed.places (ns.map a.node) = Typed.places ns := by
  rw [Typed.places, List.filterMap_map]
  exact List.filterMap_congr fun n _ => place?_node a n

/-- The spans of a module that is read from a text nest, and any two nodes of its typed tree that
have a span are nested or have at most an end point in common. -/
theorem spans_nest {w : Int} {file : Option String} {source : String} {m : Surface.Module}
    (h : Surface.parseModule w file source = .ok m) :
    m.Nests ∧ ∀ imports,
      Span.Laminar (Typed.places (Bind.nodesOf (run m imports).checked.binds)) := by
  have hm : m.Nests := Surface.nests_parseModule h
  refine ⟨hm, fun imports => ?_⟩
  show Span.Laminar (Typed.places (Bind.nodesOf ((elaborate m imports).answers.binds _)))
  rw [Typed.nodes_binds, places_node]
  exact laminar_binds hm imports _ _

/-- Equations that are merged, operators to the right of each other, and an instance. -/
def operatorText : String :=
  "module A\ninfixr 5 <+>\ndata T = N | C T T\nclass K a where\n  k :: a -> a\n" ++
  "instance K T where\n  k (x) = x\n" ++
  "(<+>) N y = y\n(<+>) (C x xs) y = let z = k x in C z N <+> xs <+> y"

theorem spans_nest_operatorText :
    (module (ofText operatorText) []).toBool = true ∧ (ofText operatorText).Nests ∧
      ∀ imports, Span.Laminar
        (Typed.places (Bind.nodesOf (run (ofText operatorText) imports).checked.binds)) :=
  ⟨by decide +kernel, spans_nest (parseModule_ofText (by decide +kernel))⟩

end Check

end TypeLens
