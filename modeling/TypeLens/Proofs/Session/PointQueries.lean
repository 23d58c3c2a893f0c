import Mathlib.Data.List.Forall2
import TypeLens.Proofs.Render.Fragments
import TypeLens.Proofs.Session.Loading
import TypeLens.Proofs.Typed.Positions

/-!
Which types a query for a point gives: one for each position of the tree at which a node contains
the point and has a type.
-/

namespace TypeLens.Session

open Typed

variable (c : Core.Context)

/-- The fragment of a node that has a type. -/
def fragment? : Node → Option Fragment
  | .expr e => (Core.typeOfExpr c e).toOption.map fun t => ⟨e.loc, t, .expression⟩
  | .bind (.fn _ g l) => some ⟨l, g.ty, .binding⟩
  | .pat p => some ⟨p.loc, p.ty, .pattern⟩
  | _ => none

/-- Collecting by kind, first the expressions, then the bindings, then the patterns, only reorders. -/
theorem fragmentsOf_perm (bs : List Bind) (p : Point) :
    (fragmentsOf c (search bs p)).Perm
      (((Bind.nodesOf bs).filter fun n => n.loc.contains p).filterMap (fragment? c)) := by
  rw [fragmentsOf, search]
  dsimp only
  induction (Bind.nodesOf bs).filter fun n => n.loc.contains p with
  | nil => exact .refl _
  | cons n ns ih =>
    cases n with
    | expr e => cases h : (Core.typeOfExpr c e).toOption <;> simpa [fragment?, h] using ih
    | bind b =>
      cases b with
      | fn i g l =>
        simp only [fragment?, exprsOf_bind, List.append_assoc] at ih ⊢
        exact List.perm_middle.trans (ih.cons _)
      | _ => exact ih
    | pat p =>
      simp only [fragment?, exprsOf_pat, List.filterMap_cons_none] at ih ⊢
      exact List.perm_middle.trans (ih.cons _)
    | _ => exact ih

/-- The type of a node: that of its core term, of its equations, of what it is matched against. -/
inductive HasType : Node → Ty → Prop
  | expr {e : Expr} {x : Core.Term} {t : Ty} :
      Core.lowerExpr c e = .ok x → x.type = .ok t → HasType (.expr e) t
  | fn (i : Ident) (g : MatchGroup) (l : Span) : HasType (.bind (.fn i g l)) g.ty
  | pat (p : Pat) : HasType (.pat p) p.ty

/-- The entry of a node: the four numbers of its own span, and its type as it is printed. -/
def IsEntry (n : Node) (row : Extent × String) : Prop :=
  n.loc.extent = some row.1 ∧ ∃ t, HasType c n t ∧ row.2 = t.render .never

/-- The nodes at a point that have an entry. -/
def Reported (p : Point) : Node → Prop
  | .expr e => e.loc.contains p ∧ ∃ x, Core.lowerExpr c e = .ok x
  | .bind (.fn _ _ l) => l.contains p
  | .pat q => q.loc.contains p
  | _ => False

variable {c}

theorem typeOfExpr_eq_ok_iff {e : Expr} {t : Ty} :
    Core.typeOfExpr c e = .ok t ↔ ∃ x, Core.lowerExpr c e = .ok x ∧ x.type = .ok t := by
  rw [Core.typeOfExpr]
  cases Core.lowerExpr c e with
  | error f => simp [Bind.bind, Except.bind]
  | ok x => cases hx : x.type <;> simp [Bind.bind, Except.bind, Except.mapError, hx]

/-- Only terms that have a type come out of lowering. -/
theorem exists_type_of_lowerExpr {e : Expr} {x : Core.Term} (h : Core.lowerExpr c e = .ok x) :
    ∃ t, x.type = .ok t := by
  rw [Core.lowerExpr] at h
  cases hr : (Core.Lower.expr c e).run 0 with
  | error f =>
    rw [hr] at h
    cases h
  | ok y =>
    obtain ⟨y, n⟩ := y
    rw [hr] at h
    cases hy : y.type with
    | error f => simp [Bind.bind, Except.bind, hy, throw, throwThe, MonadExceptOf.throw] at h
    | ok t =>
      obtain rfl : y = x := by
        simpa [Bind.bind, Except.bind, hy, Pure.pure, Except.pure] using h
      exact ⟨t, hy⟩

theorem exists_fragment_iff {n : Node} {t : Ty} :
    (∃ k, fragment? c n = some ⟨n.loc, t, k⟩) ↔ HasType c n t := by
  constructor
  · rintro ⟨k, h⟩
    cases n with
    | expr e =>
      rw [fragment?] at h
      cases ht : Core.typeOfExpr c e with
      | error f => rw [ht] at h; cases h
      | ok t' =>
        rw [ht] at h
        cases h
        obtain ⟨x, hx, hxt⟩ := typeOfExpr_eq_ok_iff.1 ht
        exact .expr hx hxt
    | bind b =>
      cases b with
      | fn i g l =>
        cases h
        exact .fn i g l
      | _ => cases h
    | pat p =>
      cases h
      exact .pat p
    | _ => cases h
  · intro h
    cases h with
    | expr hx ht => exact ⟨_, by rw [fragment?, typeOfExpr_eq_ok_iff.2 ⟨_, hx, ht⟩]; rfl⟩
    | fn i g l => exact ⟨_, rfl⟩
    | pat p => exact ⟨_, rfl⟩

theorem span_of_fragment {n : Node} {f : Fragment} (h : fragment? c n = some f) :
    f.span = n.loc := by
  cases n with
  | expr e =>
    obtain ⟨t, -, rfl⟩ := Option.map_eq_some_iff.1 h
    rfl
  | bind b => cases b <;> cases h; rfl
  | pat p => cases h; rfl
  | _ => cases h

/-- What a query for a point says of a node, if anything. -/
def listed? (c : Core.Context) (p : Point) (n : Node) : Option (Extent × String) :=
  if n.loc.contains p then (fragment? c n).bind Fragment.listed? else none

theorem isEntry_of_listed? {p : Point} {n : Node} {row : Extent × String}
    (h : listed? c p n = some row) : n.loc.contains p ∧ IsEntry c n row := by
  obtain ⟨hp, h⟩ := Option.ite_none_right_eq_some.1 h
  obtain ⟨⟨s, t, k⟩, hf, h⟩ := Option.bind_eq_some_iff.1 h
  obtain rfl : s = n.loc := span_of_fragment hf
  obtain ⟨r, hr, rfl⟩ := Option.map_eq_some_iff.1 h
  exact ⟨hp, hr, t, exists_fragment_iff.1 ⟨k, hf⟩, rfl⟩

theorem isSome_listed?_iff {p : Point} {n : Node} : (listed? c p n).isSome ↔ Reported c p n := by
  constructor
  · intro h
    obtain ⟨row, h⟩ := Option.isSome_iff_exists.1 h
    obtain ⟨hp, -, t, ht, -⟩ := isEntry_of_listed? h
    cases ht with
    | expr hx _ => exact ⟨hp, _, hx⟩
    | fn i g l => exact hp
    | pat q => exact hp
  · intro h
    have hentry (hp : n.loc.contains p) (t : Ty) (ht : HasType c n t) : (listed? c p n).isSome := by
      obtain ⟨k, hk⟩ := exists_fragment_iff.2 ht
      have hgood : n.loc.extent.isSome := by
        simp only [Span.contains, Bool.and_eq_true] at hp
        exact hp.1.1
      rw [listed?, if_pos hp, hk]
      simpa [Fragment.listed?] using hgood
    cases n with
    | expr e =>
      obtain ⟨hp, x, hx⟩ := h
      obtain ⟨t, ht⟩ := exists_type_of_lowerExpr hx
      exact hentry hp t (.expr hx ht)
    | bind b =>
      cases b with
      | fn i g l => exact hentry h _ (.fn i g l)
      | _ => cases h
    | pat q => exact hentry h _ (.pat q)
    | _ => cases h

theorem order_fragmentsOf_perm (bs : List Bind) (p : Point) :
    (Fragment.order (fragmentsOf c (search bs p))).Perm
      ((Bind.nodesOf bs).filterMap (listed? c p)) := by
  have hentry : listed? c p = fun n =>
      if n.loc.contains p then (fragment? c n).bind Fragment.listed? else none := rfl
  refine (Fragment.order_perm _).trans (((fragmentsOf_perm c bs p).filterMap _).trans (.of_eq ?_))
  rw [List.filterMap_filterMap, List.filterMap_filter, hentry]

/-- The values that a function has on some of the members of a list, member by member. -/
theorem forall₂_filterMap {α β : Type} (f : α → Option β) (xs : List α) :
    List.Forall₂ (fun x y => f x = some y) (xs.filter fun x => (f x).isSome) (xs.filterMap f) := by
  induction xs with
  | nil => exact .nil
  | cons x xs ih =>
    cases h : f x with
    | none => simpa [h] using ih
    | some y => simpa [h] using ih

/-- The entries are those of the positions at which a node is reported: each has one entry, which is
its own. -/
theorem exists_positions_of_perm {es : List (Extent × String)} {bs : List Bind} {p : Point}
    (h : es.Perm ((Bind.nodesOf bs).filterMap (listed? c p))) :
    ∃ qs : List (List Nat), qs.Nodup ∧
      (∀ q, q ∈ qs ↔ ∃ n, nodeAt? (bs.map .bind) q = some n ∧ Reported c p n) ∧
      ∃ rows, es.Perm rows ∧ List.Forall₂
        (fun q row => ∃ n, nodeAt? (bs.map .bind) q = some n ∧ IsEntry c n row) qs rows := by
  obtain ⟨qs, hqs⟩ := exists_enumerates (bs.map .bind)
  let f (q : List Nat) : Option (Extent × String) := (nodeAt? (bs.map .bind) q).bind (listed? c p)
  have hrows : (Bind.nodesOf bs).filterMap (listed? c p) = qs.filterMap f := by
    have hreads := congrArg (List.filterMap fun n? : Option Node => n?.bind (listed? c p)) hqs.reads
    rw [List.filterMap_map, List.filterMap_map] at hreads
    rw [nodesOf_binds_eq]
    exact hreads.symm
  refine ⟨qs.filter fun q => (f q).isSome, hqs.nodup.filter _, fun q => ?_, qs.filterMap f,
    hrows ▸ h, (forall₂_filterMap f qs).imp fun q row hq => ?_⟩
  · rw [List.mem_filter, hqs.mem]
    constructor
    · rintro ⟨-, hq⟩
      obtain ⟨row, hq⟩ := Option.isSome_iff_exists.1 hq
      obtain ⟨n, hn, hrow⟩ := Option.bind_eq_some_iff.1 hq
      exact ⟨n, hn, isSome_listed?_iff.1 (hrow ▸ rfl)⟩
    · rintro ⟨n, hn, hr⟩
      have hf : f q = listed? c p n := by simp only [f, hn, Option.bind_some]
      exact ⟨hn ▸ rfl, hf ▸ isSome_listed?_iff.2 hr⟩
  · obtain ⟨n, hn, hrow⟩ := Option.bind_eq_some_iff.1 hq
    exact ⟨n, hn, (isEntry_of_listed? hrow).2⟩

/-- Reading the bundled module does not change what lowering knows. -/
theorem coreContext_keep {s : Session} {k : Checked} (h : s.bundled = .ok k) (module : String)
    (g : Globals) : ({ s with kept := some k } : Session).coreContext module g =
      s.coreContext module g := by
  have hbundled : ({ s with kept := some k } : Session).bundled = s.bundled := by rw [h]; rfl
  rw [coreContext, coreContext, hbundled]
  rfl

theorem run_typesAt (m : Summary) (k : Checked) (p : Point) (s : Session) :
    (∃ f, ((typesAt m k p).run s).1 = .error f ∧ s.bundled = .error f) ∨
      ((typesAt m k p).run s).1 = .ok (Fragment.order
        (fragmentsOf (s.coreContext m.module k.globals) (search k.binds p))) := by
  rw [typesAt]
  dsimp only
  split
  · rw [run_bind, run_readBundled]
    cases h : s.bundled with
    | error f => exact .inl ⟨f, rfl, rfl⟩
    | ok b =>
      refine .inr ?_
      dsimp only
      rw [run_get_bind, coreContext_keep h]
      rfl
  · exact .inr rfl

/-- A query for a point gives one entry for each position of the tree at which there is an expression
that contains the point and has a core term, a function binding that contains it, or a pattern that
contains it, and no other entries. It fails only if it has to read the bundled module and cannot. -/
theorem typesAt_exact (m : Summary) (k : Checked) (p : Point) (s : Session) :
    let c := s.coreContext m.module k.globals
    let roots := k.binds.map Node.bind
    match ((typesAt m k p).run s).1 with
    | .error f => s.bundled = .error f
    | .ok es => ∃ qs : List (List Nat), qs.Nodup ∧
        (∀ q, q ∈ qs ↔ ∃ n, nodeAt? roots q = some n ∧ Reported c p n) ∧
        ∃ rows, es.Perm rows ∧ List.Forall₂
          (fun q row => ∃ n, nodeAt? roots q = some n ∧ IsEntry c n row) qs rows := by
  dsimp only
  rcases run_typesAt m k p s with ⟨f, hf, hb⟩ | hok
  · rw [hf]
    exact hb
  · rw [hok]
    exact exists_positions_of_perm (order_fragmentsOf_perm k.binds p)

end TypeLens.Session
