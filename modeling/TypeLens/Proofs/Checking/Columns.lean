import TypeLens.Proofs.Checking.DataCons
import TypeLens.Proofs.Checking.TopOccurrences
import TypeLens.Proofs.Unification.Assignment

/-!
The types of patterns. The type of a constructor is that of a function of its fields, and nothing is
left to find out in it. In a module that is accepted, the patterns of an equation have the types of
their columns, a pattern with a constructor has the types of the constructor at its type arguments,
and a binding has the variables of its pattern. If the module was read from a text, there is an
equation in each group.
-/

namespace TypeLens

namespace Check

/-- What is known of a constructor when the bindings of a module are checked. -/
theorem fielded_constructor {m : Surface.Module} {imports : List Exports}
    (hi : ∀ x ∈ imports, Compiled x) {n : Name} {c : DataCon}
    (h : (declared m imports).2.globals.entity? n = some (.dataCon c)) :
    n = c.name ∧ c.Closed ∧ c.Fielded := by
  have hfielded := (dataCons_declared (fun x hx => (hi x hx).fielded) (makes_fielded m)).known
    _ (Table.mem_of_get? h)
  have hkeyed : (declared m imports).2.Keyed m :=
    (declared_of_inductive inductive_exported fun _ _ => .inr).1
  refine ⟨hkeyed.of_entity? h, ?_, hfielded⟩
  rcases (declared_of_inductive inductive_exported fun _ _ => .inr).2 n _ h with h | h
  · have hinitial : (Declaring.initial m imports).exports.Closed :=
      ⟨fun _ h => absurd h List.not_mem_nil, fun _ h => absurd h List.not_mem_nil⟩
    exact (Declare.closes_all m _ hinitial).1.entities _ (Table.mem_of_get? h)
  · exact closed_initial hi _ (Table.mem_of_get? h)

end Check

namespace Typed

theorem Answers.ty_literal (a : Answers) (v : Literal) : a.ty v.ty = v.ty := by
  cases v <;> rfl

theorem ty_pat (a : Answers) : ∀ p : Pat, (a.pat p).ty = a.ty p.ty
  | .var _ _ | .wild _ _ | .con _ _ _ _ _ => rfl
  | .lit v _ => (a.ty_literal v).symm
  | .par p _ => ty_pat a p

theorem pats_eq_map (a : Answers) (ps : List Pat) : a.pats ps = ps.map a.pat := by
  induction ps with
  | nil => rfl
  | cons p ps ih => rw [Answers.pats, ih, List.map_cons]

theorem types_pats (a : Answers) (ps : List Pat) :
    (a.pats ps).map Pat.ty = ps.map (a.ty ·.ty) := by
  rw [pats_eq_map, List.map_map]
  exact List.map_congr_left fun p _ => ty_pat a p

variable {a : Answers} {n : Node}

theorem exists_group_of_node {g : MatchGroup} (h : .group g = a.node n) :
    ∃ g', n = .group g' ∧ g = a.group g' := by
  cases n with
  | group g' => exact ⟨g', rfl, Node.group.inj h⟩
  | _ => cases h

theorem exists_con_of_node {k : Name} {ts : List Ty} {ps : List Pat} {t : Ty} {l : Span}
    (h : .pat (.con k ts ps t l) = a.node n) : ∃ ts' ps' t', n = .pat (.con k ts' ps' t' l) ∧
      ts = ts'.map a.ty ∧ ps = a.pats ps' ∧ t = a.ty t' := by
  cases n with
  | pat p =>
    cases p with
    | con k' ts' ps' t' l' =>
      cases h
      exact ⟨ts', ps', t', rfl, rfl, rfl, rfl⟩
    | _ => cases h
  | _ => cases h

theorem exists_bind_of_node {b : Bind} (h : .bind b = a.node n) :
    ∃ b', n = .bind b' ∧ b = a.bind b' := by
  cases n with
  | bind b' => exact ⟨b', rfl, Node.bind.inj h⟩
  | _ => cases h

end Typed

namespace Check

open Typed (Bind Pat)

variable {m : Surface.Module} {imports : List Exports} {checked : Checked}

/-- Where the elaboration of a module ends, with the constructors that are known when its bindings
are checked. -/
def columns (m : Surface.Module) (imports : List Exports) : Finish where
  subst := (elaborate m imports).answers.images
  inferred := (elaborate m imports).state.inferred
  Holds _ _ := True
  Constructor c := (declared m imports).2.globals.entity? c.name = some (.dataCon c)
  Neat := m.Neat

/-- What is said of the nodes of a tree when they are checked. -/
theorem accounts_of_module (hi : ∀ x ∈ imports, Compiled x) (hm : module m imports = .ok checked) :
    ∀ n ∈ Bind.nodesOf checked.binds, ∃ n',
      (columns m imports).Accounts n' ∧ n = (elaborate m imports).answers.node n' := by
  intro n hn
  let e := elaborate m imports
  let x := columns m imports
  obtain ⟨hno, hbinds⟩ := of_module_eq_ok hm
  have hclosed : x.Closed := by constructor <;> intros <;> trivial
  have hknows : x.Knows (declared m imports).2.globals := by
    intro n c hc
    obtain ⟨rfl, -⟩ := fielded_constructor hi hc
    exact hc
  have hbefore : x.Before e.state := by
    have himages : x.subst = e.state.subst := Typed.images_ofSolutions _ _
    exact ⟨himages ▸ .refl _, hno, fun _ he => he⟩
  have hinstances (hneat : m.Neat) : ∀ i ∈ (declared m imports).1, ∀ b ∈ i.2.binds, b.Neat :=
    fun i hi => hneat (.inst i.2) ((sublist_declared m imports).subset (List.mem_map_of_mem hi))
  obtain ⟨-, hnoted⟩ := (Finish.yields_binds (Finish.bindRule_noted hclosed) hclosed (H := True)
    hknows Surface.Module.Neat.bindings hinstances).2 _ hbefore trivial
  rw [hbinds, Typed.nodes_binds] at hn
  obtain ⟨n', hn', rfl⟩ := List.mem_map.1 hn
  obtain ⟨b, hb, hn'⟩ := Typed.mem_nodesOf_binds.1 hn'
  exact ⟨n', hnoted b hb _ hn', rfl⟩

theorem types_of_matches {ps : List Pat} {ts : List Ty} (h : (columns m imports).Matches ps ts) :
    let a := (elaborate m imports).answers
    (a.pats ps).map Pat.ty = ts.map a.ty :=
  (Typed.types_pats _ ps).trans h

/-- The types of a constructor have no unification variables, so that they can be taken at the type
arguments before or after these are known. -/
theorem types_of_constructs {c : DataCon} {ts : List Ty} {ps : List Pat} {t r : Ty}
    (h : (columns m imports).Constructs c ts ps t) (hc : c.Closed)
    (hr : c.scheme.body = .fns c.argTypes r) :
    let a := (elaborate m imports).answers
    let at_ := assign c.scheme.tvs (ts.map a.ty)
    a.ty t = r.substVars at_ ∧ (a.pats ps).map Pat.ty = c.argTypes.map (·.substVars at_) := by
  have hground := hc.scheme.body
  rw [hr, Ty.uvarOccurrences_fns, List.append_eq_nil_iff] at hground
  constructor
  · rw [h.result, hr, Ty.splitFns_fns]
    exact Ty.substUvars_at _ hground.2 _ _
  · rw [types_of_matches h.fields, List.map_map]
    exact List.map_congr_left fun u hu => Ty.substUvars_at _ (hc.args u hu) _ _

/-- There are no cases without alternatives in a module that was read from a text. -/
theorem rows_ne_nil_of_read (hi : ∀ x ∈ imports, Compiled x) {w : Int} {file : Option String}
    {source : String} (hread : Surface.parseModule w file source = .ok m)
    (hm : module m imports = .ok checked) :
    ∀ g, .group g ∈ Bind.nodesOf checked.binds → g.rows ≠ [] := by
  intro g hg
  obtain ⟨n, hn, heq⟩ := accounts_of_module hi hm _ hg
  obtain ⟨⟨ms, ts, u⟩, rfl, rfl⟩ := Typed.exists_group_of_node heq
  obtain ⟨hne, -⟩ := hn (Surface.neat_parseModule hread)
  rw [Typed.Answers.group, Typed.MatchGroup.rows, Typed.rows_eq_map]
  exact fun h => hne (List.map_eq_nil_iff.1 h)

/-- In a module that is accepted, the type of a pattern with a constructor is what the constructor
makes at the type arguments of the pattern, and the patterns in it have the types of what the
constructor takes there. The variables that a binding records are those of its pattern, in order,
and its group exports them. If the module was read from a text, each equation, lambda and
alternative has as many patterns as its group has argument types, and these are the types of the
patterns. -/
theorem pattern_types_of_module (hi : ∀ x ∈ imports, Compiled x)
    (hm : module m imports = .ok checked) :
    let nodes := Bind.nodesOf checked.binds
    (∀ w file source, Surface.parseModule w file source = .ok m →
      ∀ g, .group g ∈ nodes → ∀ r ∈ g.rows, r.pats.map Pat.ty = g.argTys) ∧
    (∀ k ts ps t l, .pat (.con k ts ps t l) ∈ nodes → ∃ c r,
      (declared m imports).2.globals.entity? k = some (.dataCon c) ∧
      c.scheme.body = .fns c.argTypes r ∧ ts.length = c.scheme.tvs.length ∧
      t = r.substVars (assign c.scheme.tvs ts) ∧
      ps.map Pat.ty = c.argTypes.map (·.substVars (assign c.scheme.tvs ts))) ∧
    (∀ p rhs is l, .bind (.pat p rhs is l) ∈ nodes → p.idents = is) ∧
    (∀ tvs ds xs bs l, .bind (.abs tvs ds xs bs l) ∈ nodes →
      ∀ b ∈ bs, ∀ i ∈ b.idents, i ∈ xs.map (·.mono)) := by
  intro nodes
  have haccounts := accounts_of_module hi hm
  refine ⟨fun w file source hparse g hg r hr => ?_, fun k ts ps t l hp => ?_,
    fun p rhs is l hb => ?_, fun tvs ds xs bs l hb b hmem i hident => ?_⟩
  · obtain ⟨n, hn, heq⟩ := haccounts _ hg
    obtain ⟨⟨ms, ts, u⟩, rfl, rfl⟩ := Typed.exists_group_of_node heq
    rw [Typed.Answers.group, Typed.MatchGroup.rows, Typed.rows_eq_map] at hr
    obtain ⟨⟨ps, rhs, l⟩, hr', rfl⟩ := List.mem_map.1 hr
    exact types_of_matches ((hn (Surface.neat_parseModule hparse)).2 _ hr')
  · obtain ⟨n, hn, heq⟩ := haccounts _ hp
    obtain ⟨ts', ps', t', rfl, rfl, rfl, rfl⟩ := Typed.exists_con_of_node heq
    obtain ⟨c, rfl, hcon⟩ := hn
    obtain ⟨-, hc, r, hr⟩ := fielded_constructor hi hcon.known
    refine ⟨c, r, hcon.known, hr, ?_, types_of_constructs hcon hc hr⟩
    rw [List.length_map, hcon.typeArgs]
  · obtain ⟨n, hn, heq⟩ := haccounts _ hb
    obtain ⟨b', rfl, heq⟩ := Typed.exists_bind_of_node heq
    cases b' with
    | pat p' rhs' is' l' =>
      cases heq
      have hn : p'.idents = is' := hn
      rw [Typed.idents_pat, hn]
    | _ => cases heq
  · obtain ⟨n, hn, heq⟩ := haccounts _ hb
    obtain ⟨b', rfl, heq⟩ := Typed.exists_bind_of_node heq
    cases b' with
    | abs tvs' ds' xs' bs' l' =>
      cases heq
      rw [binds_eq_map] at hmem
      obtain ⟨b, hb', rfl⟩ := List.mem_map.1 hmem
      rw [Typed.idents_bind] at hident
      obtain ⟨i, hi', rfl⟩ := List.mem_map.1 hident
      obtain ⟨x, hx, rfl⟩ := List.mem_map.1 (hn b hb' i hi')
      exact List.mem_map.2 ⟨_, List.mem_map_of_mem hx, rfl⟩
    | _ => cases heq

/-- Equations with patterns in patterns, a lambda, alternatives, and a pattern that is bound. -/
def columnText : String :=
  "module A\ndata P a = P a (P a) | N\nf N y = y\n" ++
  "f (P x (P z r)) y = (\\w -> case r of \x7b N -> w; P v q -> v \x7d) z\nP p q = P 1 (P 2 N)"

theorem pattern_types_columnText :
    let m := ofText columnText
    let nodes := Bind.nodesOf (run m []).checked.binds
    module m [] = .ok (run m []).checked ∧
    (nodes.filterMap fun n => match n with
      | .group g => some (g.argTys.length, g.rows.length)
      | _ => none) = [(2, 2), (1, 1), (1, 2)] ∧
    (∀ g, .group g ∈ nodes → ∀ r ∈ g.rows, r.pats.map Pat.ty = g.argTys) ∧
    (∀ p rhs is l, .bind (.pat p rhs is l) ∈ nodes → p.idents = is) := by
  intro m nodes
  have hm : module m [] = .ok (run m []).checked := module_eq_run (by decide +kernel)
  have hnone : ∀ x ∈ ([] : List Exports), Compiled x := by simp
  obtain ⟨hgroups, -, hbinds, -⟩ := pattern_types_of_module hnone hm
  have hparse : Surface.parseModule 8 none columnText = .ok m :=
    parseModule_ofText (by decide +kernel)
  exact ⟨hm, by decide +kernel, hgroups _ _ _ hparse, hbinds⟩

end Check

end TypeLens
