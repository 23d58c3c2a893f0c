import TypeLens.Proofs.Lowering.FreeNames

/-!
Trees whose local names are all in scope, once unification variables and holes have given way to
what was found for them. The bindings of a group are in the scope of each other.
-/

namespace TypeLens

namespace Typed

-- Names stay what they are

mutual

theorem names_pat (a : Answers) : ∀ p : Pat, (a.pat p).names = p.names
  | .var _ _ | .wild _ _ | .lit _ _ => rfl
  | .con _ _ ps _ _ => by
    rw [Answers.pat, Pat.names, Pat.names]
    exact namesOf_pats a ps
  | .par p _ => by
    rw [Answers.pat, Pat.names, Pat.names]
    exact names_pat a p

theorem namesOf_pats (a : Answers) : ∀ ps : List Pat, Pat.namesOf (a.pats ps) = Pat.namesOf ps
  | [] => rfl
  | p :: ps => by
    rw [Answers.pats, Pat.namesOf, Pat.namesOf, names_pat a p, namesOf_pats a ps]

end

theorem length_pats (a : Answers) (ps : List Pat) : (a.pats ps).length = ps.length := by
  induction ps with
  | nil => rfl
  | cons p ps ih => rw [Answers.pats, List.length_cons, List.length_cons, ih]

theorem rows_eq_map (a : Answers) (ms : List Match) : a.rows ms = ms.map a.row := by
  induction ms with
  | nil => rfl
  | cons m ms ih =>
    obtain ⟨ps, e, l⟩ := m
    rw [Answers.rows, ih, List.map_cons, Answers.row]

theorem length_pats_row (a : Answers) (m : Match) : (a.row m).pats.length = m.pats.length := by
  obtain ⟨ps, e, l⟩ := m
  exact length_pats a ps

theorem names_bind (a : Answers) (b : Bind) : (a.bind b).names = b.names := by
  cases b with
  | fn i g l => rfl
  | pat p e is l =>
    simp only [Answers.bind, Bind.names, List.map_map]
    rfl
  | abs tvs ds xs bs l =>
    simp only [Answers.bind, Bind.names, List.map_map]
    rfl

theorem namesOf_binds (a : Answers) (bs : List Bind) :
    Bind.namesOf (a.binds bs) = Bind.namesOf bs := by
  induction bs with
  | nil => rfl
  | cons b bs ih =>
    rw [Answers.binds, Bind.namesOf, Bind.namesOf, List.flatMap_cons, List.flatMap_cons,
      names_bind, ← Bind.namesOf, ih, ← Bind.namesOf]

end Typed

namespace Core

open Typed (Answers Expr Match MatchGroup Pat)

variable {c : Context} {a : Answers} {ns : List Name}

theorem NodeFits.resolve {n : Typed.Node} (h : NodeFits c n) : NodeFits c (a.node n) := by
  cases n with
  | row m => trivial
  | group g =>
    obtain ⟨ms, ts, t⟩ := g
    intro m hm
    rw [Typed.rows_eq_map] at hm
    obtain ⟨m', hm', rfl⟩ := List.mem_map.1 hm
    rw [Typed.length_pats_row, List.length_map]
    exact h m' hm'
  | pat p =>
    cases p with
    | con k ts ps t l =>
      intro d hd
      rw [Typed.length_pats]
      exact h d hd
    | _ => trivial
  | expr e =>
    cases e with
    | caseOf s g l =>
      obtain ⟨ms, ts, t⟩ := g
      intro m hm
      rw [Answers.group, MatchGroup.rows, Typed.rows_eq_map] at hm
      obtain ⟨m', hm', rfl⟩ := List.mem_map.1 hm
      rw [Typed.length_pats_row]
      exact h m' hm'
    | _ => trivial
  | bind b =>
    cases b with
    | fn i g l => trivial
    | pat p e is l =>
      intro i hi
      obtain ⟨i', hi', rfl⟩ := List.mem_map.1 hi
      rw [Typed.names_pat]
      exact h i' hi'
    | abs tvs ds xs bs l =>
      intro x hx
      obtain ⟨x', hx', rfl⟩ := List.mem_map.1 hx
      rw [Typed.namesOf_binds]
      exact h x' hx'

theorem Fits.resolve {ms : List Typed.Node} (h : Fits c ms) : Fits c (ms.map a.node) := by
  intro n hn
  obtain ⟨n', hn', rfl⟩ := List.mem_map.1 hn
  exact (h n' hn').resolve

/-- The local names in `xs` are among `ns`. -/
def Within (xs ns : List Name) : Prop := ∀ x ∈ xs, x.IsLocal → x ∈ ns

variable {xs ys : List Name}

theorem within_nil : Within [] ns := fun _ h => absurd h List.not_mem_nil

theorem within_append : Within (xs ++ ys) ns ↔ Within xs ns ∧ Within ys ns :=
  List.forall_mem_append

theorem Within.mono {ns' : List Name} (h : Within xs ns) (hns : ns ⊆ ns') : Within xs ns' :=
  fun x hx hl => hns (h x hx hl)

/-- Names that are bound need not be around. -/
theorem Within.bound {bound : List Name} (h : Within xs (bound ++ ns)) :
    Within (xs.filter (· ∉ bound)) ns := by
  intro x hx hl
  rw [List.mem_filter, decide_eq_true_eq] at hx
  exact (List.mem_append.1 (h x hx.1 hl)).resolve_left hx.2

/-- An expression with its local names among `ns`. -/
structure Scoped (c : Context) (a : Answers) (ns : List Name) (e : Expr) : Prop where
  free : Within ((a.expr e).free .together) ns
  fits : Fits c e.nodes

/-- An equation with the local names that it does not bind among `ns`. -/
structure RowScoped (c : Context) (a : Answers) (ns : List Name) (m : Match) : Prop where
  free : Within ((a.expr m.rhs).free .together) (Pat.namesOf m.pats ++ ns)
  pats : Fits c (Pat.nodesOf m.pats)
  rhs : Fits c m.rhs.nodes

structure GroupScoped (c : Context) (a : Answers) (ns : List Name) (g : MatchGroup) : Prop where
  rows : ∀ m ∈ g.rows, RowScoped c a ns m
  length : ∀ m ∈ g.rows, m.pats.length ≤ g.argTys.length

structure BindScoped (c : Context) (a : Answers) (ns : List Name) (b : Typed.Bind) : Prop where
  free : Within ((a.bind b).free .together) ns
  fits : Fits c b.nodes

/-- What bindings with a body that takes `xs` take. -/
structure BindsScoped (c : Context) (a : Answers) (inner ns : List Name) (bs : List Typed.Bind) :
    Prop where
  free : ∀ xs, Within xs inner → Within (Typed.Bind.scope .together (a.binds bs) xs) ns
  fits : Fits c (Typed.Bind.nodesOf bs)

-- Equations

theorem within_freeOf_rows {ms : List Match} (h : ∀ m ∈ ms, RowScoped c a ns m) :
    Within (Match.freeOf .together (a.rows ms)) ns := by
  induction ms with
  | nil => exact within_nil
  | cons m ms ih =>
    obtain ⟨ps, e, l⟩ := m
    obtain ⟨hm, hms⟩ := List.forall_mem_cons.1 h
    rw [Answers.rows, Match.freeOf, within_append]
    refine ⟨?_, ?_⟩
    · rw [Typed.namesOf_pats]
      exact hm.free.bound
    · split
      · exact ih hms
      · exact within_nil

theorem fits_rows {ms : List Match} (h : ∀ m ∈ ms, RowScoped c a ns m) :
    Fits c (Match.nodesOf ms) := by
  induction ms with
  | nil => exact fits_nil
  | cons m ms ih =>
    obtain ⟨ps, e, l⟩ := m
    obtain ⟨hm, hms⟩ := List.forall_mem_cons.1 h
    rw [Match.nodesOf, fits_cons, fits_append, fits_append]
    exact ⟨trivial, ⟨hm.pats, hm.rhs⟩, ih hms⟩

namespace GroupScoped

variable {g : MatchGroup}

theorem free (h : GroupScoped c a ns g) : Within ((a.group g).free .together) ns := by
  obtain ⟨ms, ts, t⟩ := g
  rw [Answers.group, MatchGroup.free]
  exact within_freeOf_rows h.rows

theorem fits (h : GroupScoped c a ns g) : Fits c g.nodes := by
  obtain ⟨ms, ts, t⟩ := g
  rw [MatchGroup.nodes, fits_cons]
  exact ⟨h.length, fits_rows h.rows⟩

end GroupScoped

-- Expressions

namespace Scoped

variable {e e' e'' : Expr} {l : Span}

theorem head {h : Typed.Head} (hh : h.name.IsLocal → h.name ∈ ns) :
    Scoped c a ns (.head h l) := by
  have hname : (a.head h).name = h.name := by cases h <;> rfl
  refine ⟨?_, ?_⟩
  · rw [Answers.expr, Expr.free, hname]
    exact List.forall_mem_singleton.2 hh
  · exact List.forall_mem_singleton.2 trivial

theorem inst {h : Typed.Head} {ts : List Ty} {ds : List Typed.Hole}
    (hh : h.name.IsLocal → h.name ∈ ns) (hds : Within (Typed.Hole.namesOf (ds.map a.hole)) ns) :
    Scoped c a ns (.inst h ts ds l) := by
  have hname : (a.head h).name = h.name := by cases h <;> rfl
  refine ⟨?_, ?_⟩
  · rw [Answers.expr, Expr.free, hname]
    exact List.forall_mem_cons.2 ⟨hh, hds⟩
  · exact List.forall_mem_cons.2 ⟨trivial, List.forall_mem_singleton.2 trivial⟩

theorem lit (v : Literal) : Scoped c a ns (.lit v l) :=
  ⟨within_nil, List.forall_mem_singleton.2 trivial⟩

theorem app (h : Scoped c a ns e) (h' : Scoped c a ns e') : Scoped c a ns (.app e e' l) := by
  refine ⟨?_, ?_⟩
  · rw [Answers.expr, Expr.free, within_append]
    exact ⟨h.free, h'.free⟩
  · rw [Expr.nodes, fits_cons, fits_append]
    exact ⟨trivial, h.fits, h'.fits⟩

theorem opApp (h : Scoped c a ns e) (h' : Scoped c a ns e') (h'' : Scoped c a ns e'') :
    Scoped c a ns (.opApp e e' e'' l) := by
  refine ⟨?_, ?_⟩
  · rw [Answers.expr, Expr.free, within_append, within_append]
    exact ⟨⟨h.free, h'.free⟩, h''.free⟩
  · rw [Expr.nodes, fits_cons, fits_append, fits_append]
    exact ⟨trivial, ⟨h.fits, h'.fits⟩, h''.fits⟩

theorem lambda {g : MatchGroup} (h : GroupScoped c a ns g) : Scoped c a ns (.lambda g l) := by
  refine ⟨?_, ?_⟩
  · rw [Answers.expr, Expr.free]
    exact h.free
  · rw [Expr.nodes, fits_cons]
    exact ⟨trivial, h.fits⟩

theorem letIn {bs : List Typed.Bind} {inner : List Name} (h : BindsScoped c a inner ns bs)
    (h' : Scoped c a inner e) : Scoped c a ns (.letIn bs e l) := by
  refine ⟨?_, ?_⟩
  · rw [Answers.expr, Expr.free]
    exact h.free _ h'.free
  · rw [Expr.nodes, fits_cons, fits_append]
    exact ⟨trivial, h.fits, h'.fits⟩

theorem ifThenElse (h : Scoped c a ns e) (h' : Scoped c a ns e') (h'' : Scoped c a ns e'') :
    Scoped c a ns (.ifThenElse e e' e'' l) := by
  refine ⟨?_, ?_⟩
  · rw [Answers.expr, Expr.free, within_append, within_append]
    exact ⟨⟨h.free, h'.free⟩, h''.free⟩
  · rw [Expr.nodes, fits_cons, fits_append, fits_append]
    exact ⟨trivial, ⟨h.fits, h'.fits⟩, h''.fits⟩

theorem caseOf {ms : List Match} {t u : Ty} (h : Scoped c a ns e)
    (hg : GroupScoped c a ns (.mk ms [t] u)) : Scoped c a ns (.caseOf e (.mk ms [t] u) l) := by
  refine ⟨?_, ?_⟩
  · rw [Answers.expr, Expr.free, within_append]
    exact ⟨h.free, hg.free⟩
  · rw [Expr.nodes, fits_cons, fits_append]
    exact ⟨hg.length, h.fits, hg.fits⟩

theorem list {es : List Expr} {t : Ty} (h : ∀ e ∈ es, Scoped c a ns e) :
    Scoped c a ns (.list es t l) := by
  refine ⟨?_, ?_⟩
  · rw [Answers.expr, Expr.free]
    induction es with
    | nil => exact within_nil
    | cons e es ih =>
      obtain ⟨he, hes⟩ := List.forall_mem_cons.1 h
      rw [Answers.exprs, Expr.freeOf, within_append]
      exact ⟨he.free, ih hes⟩
  · rw [Expr.nodes, fits_cons]
    refine ⟨trivial, fun n hn => ?_⟩
    obtain ⟨e, he, hn⟩ := Typed.mem_nodesOf_list.1 hn
    exact (h e he).fits n hn

theorem par (h : Scoped c a ns e) : Scoped c a ns (.par e l) := by
  refine ⟨?_, ?_⟩
  · rw [Answers.expr, Expr.free]
    exact h.free
  · rw [Expr.nodes, fits_cons]
    exact ⟨trivial, h.fits⟩

end Scoped

-- Bindings

namespace BindScoped

variable {l : Span}

theorem mono {ns' : List Name} {b : Typed.Bind} (h : BindScoped c a ns b) (hns : ns ⊆ ns') :
    BindScoped c a ns' b := ⟨h.free.mono hns, h.fits⟩

theorem fn {i : Typed.Ident} {g : MatchGroup} (h : GroupScoped c a ns g) :
    BindScoped c a ns (.fn i g l) := by
  refine ⟨?_, ?_⟩
  · rw [Answers.bind, Typed.Bind.free]
    exact fun x hx => h.free x (List.mem_filter.1 hx).1
  · rw [Typed.Bind.nodes, fits_cons]
    exact ⟨trivial, h.fits⟩

theorem pat {p : Pat} {e : Expr} {is : List Typed.Ident} (hp : Fits c p.nodes)
    (his : ∀ i ∈ is, i.name ∈ p.names) (h : Scoped c a ns e) :
    BindScoped c a ns (.pat p e is l) := by
  refine ⟨?_, ?_⟩
  · rw [Answers.bind, Typed.Bind.free]
    exact h.free
  · rw [Typed.Bind.nodes, fits_cons, fits_append]
    exact ⟨his, hp, h.fits⟩

/-- The bindings of a group may take what it defines, and the dictionaries that it takes. -/
theorem abs {tvs : List String} {ds : List Typed.DictVar} {xs : List Typed.Export}
    {bs : List Typed.Bind}
    (h : ∀ b ∈ bs, BindScoped c a (Typed.Bind.namesOf bs ++ (ds.map (·.name) ++ ns)) b)
    (hxs : ∀ x ∈ xs, x.mono.name ∈ Typed.Bind.namesOf bs) :
    BindScoped c a ns (.abs tvs ds xs bs l) := by
  have hfree : Within (Typed.Bind.freeOf .together (a.binds bs))
      (Typed.Bind.namesOf bs ++ (ds.map (·.name) ++ ns)) := by
    generalize Typed.Bind.namesOf bs ++ (ds.map (·.name) ++ ns) = ns' at h
    clear hxs
    induction bs with
    | nil => exact within_nil
    | cons b bs ih =>
      obtain ⟨hb, hbs⟩ := List.forall_mem_cons.1 h
      rw [Answers.binds, Typed.Bind.freeOf, within_append]
      exact ⟨hb.free, ih hbs⟩
  refine ⟨?_, ?_⟩
  · have hnames : (ds.map a.dictVar).map (·.name) = ds.map (·.name) := by
      rw [List.map_map]
      rfl
    rw [Answers.bind, Typed.Bind.free, Typed.namesOf_binds, hnames]
    split
    · exact within_nil
    · exact hfree.bound.bound
  · rw [Typed.Bind.nodes, fits_cons]
    refine ⟨hxs, fun n hn => ?_⟩
    obtain ⟨b, hb, hn⟩ := Typed.mem_nodesOf_binds.1 hn
    exact (h b hb).fits n hn

end BindScoped

namespace BindsScoped

theorem nil : BindsScoped c a ns ns [] := ⟨fun _ h => h, fits_nil⟩

theorem cons {b : Typed.Bind} {bs : List Typed.Bind} {inner : List Name}
    (h : BindScoped c a ns b) (h' : BindsScoped c a inner (b.names ++ ns) bs) :
    BindsScoped c a inner ns (b :: bs) := by
  refine ⟨fun xs hxs => ?_, ?_⟩
  · rw [Answers.binds, Typed.Bind.scope, within_append, Typed.names_bind]
    exact ⟨h.free, (h'.free xs hxs).bound⟩
  · rw [Typed.Bind.nodesOf, fits_append]
    exact ⟨h.fits, h'.fits⟩

end BindsScoped

end Core

end TypeLens
