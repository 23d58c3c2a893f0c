import TypeLens.Proofs.Checking.Changes
import TypeLens.Proofs.Checking.Formation
import TypeLens.Proofs.Checking.Resolution

/-!
The types that are written in a module. They have their arguments if those of the list constructor,
which nothing checks, are right; otherwise an error is reported.
-/

namespace TypeLens

namespace Surface

mutual

/-- The constructors that a type is written with, each with the number of its arguments. -/
def TypeExpr.heads : TypeExpr → List (String × Nat)
  | .var _ _ => []
  | .con c ts _ => (c, ts.length) :: TypeExpr.headsOf ts
  | .fn t u _ => t.heads ++ u.heads

def TypeExpr.headsOf : List TypeExpr → List (String × Nat)
  | [] => []
  | t :: ts => t.heads ++ TypeExpr.headsOf ts

end

/-- The types that are written in a declaration. -/
def Decl.types : Decl → List TypeExpr
  | .data d => d.cons.flatMap (·.args)
  | .cls c => c.sigs.map (·.ty.body)
  | .prim p => [p.sig.ty.body]
  | .sig s => [s.ty.body]
  | .inst i => [i.head]
  | .fixity _ | .bind _ => []

/-- The type constructors that are written in a module, each with the number of its arguments. -/
def Module.heads (m : Module) : List (String × Nat) := TypeExpr.headsOf (m.decls.flatMap Decl.types)

theorem TypeExpr.headsOf_eq (ts : List TypeExpr) : headsOf ts = ts.flatMap heads := by
  induction ts with
  | nil => rw [headsOf, List.flatMap_nil]
  | cons t ts ih => rw [headsOf, ih, List.flatMap_cons]

theorem Module.mem_heads {m : Module} {d : Decl} (hd : d ∈ m.decls) {t : TypeExpr}
    (ht : t ∈ d.types) : t.heads ⊆ m.heads := fun p hp => by
  rw [heads, TypeExpr.headsOf_eq]
  exact List.mem_flatMap.2 ⟨t, List.mem_flatMap.2 ⟨d, hd, ht⟩, hp⟩

end Surface

/-- Types and classes. -/
def Entity.isType : Entity → Bool
  | .tyCon _ => true
  | .typeClass _ => true
  | _ => false

/-- What a module makes known has its arguments. -/
structure Exports.Formed (R : Arities) (x : Exports) : Prop where
  entities : ∀ p ∈ x.entities, p.2.Formed R ∧ (p.2.name.space = .type → p.2.isType)
  instances : ∀ i ∈ x.instances, i.Formed R

namespace Check

variable {R : Arities} {lax : Prop} {m : Surface.Module}

/-- The arguments that the types in a module can have. If `lax` holds, then all numbers of arguments
are as good as one, and names that mean nothing are constructors like others. -/
structure Permits (R : Arities) (lax : Prop) (m : Surface.Module) : Prop where
  builtin : R.Builtin
  data : ∀ d, .data d ∈ m.decls → R (topName m.name .type d.name) d.tyvars.length
  cls : ∀ c, .cls c ∈ m.decls → ∃ n, R (topName m.name .type c.name) n
  list : ∀ p ∈ m.heads, p.1 = "[]" → R Builtin.listTyCon p.2
  loose : lax → ∀ c k n, R c k → R c n
  missing : lax → ∀ p ∈ m.heads, R (topName m.name .type p.1) p.2

/-- What is declared so far has its arguments, and all names of types are known. -/
structure Declaring.Formed (R : Arities) (m : Surface.Module) (d : Declaring) : Prop where
  module : d.globals.module = m.name
  keyed : ∀ p ∈ d.globals.entities, p.1 = p.2.name
  scope : ∀ occ, ∀ x ∈ d.globals.scope.lookup .type occ, x.name.space = .type ∧
    ∃ e, d.globals.entity? x.name = some e ∧ e.isType
  globals : d.globals.Formed R
  exports : d.exports.Formed R
  signatures : ∀ p ∈ d.signatures, p.2.Formed R
  reports : ∀ r ∈ d.reports, r.problem.Formed R

/-- Either errors do not matter, or there are none. -/
def Declaring.Trusted (lax : Prop) (d : Declaring) : Prop := lax ∨ ¬ d.Failed

theorem Declaring.Trusted.of_subset {d d' : Declaring} (h : d.reports ⊆ d'.reports)
    (hd : d'.Trusted lax) : d.Trusted lax :=
  hd.imp_right fun hno ⟨r, hr, herror⟩ => hno ⟨r, h hr, herror⟩

namespace Declaring.Formed

variable {d : Declaring}

theorem report (hd : d.Formed R m) {r : Report} (hr : r.problem.Formed R) :
    Declaring.Formed R m { d with reports := r :: d.reports } :=
  { hd with reports := List.forall_mem_cons.2 ⟨hr, hd.reports⟩ }

theorem of_entity? (hd : d.Formed R m) {n : Name} {e : Entity}
    (h : d.globals.entity? n = some e) : n = e.name ∧ e.Formed R :=
  ⟨hd.keyed _ (Table.mem_of_get? h), hd.globals.of_entity? h⟩

theorem addEntity (hd : d.Formed R m) {e : Entity} (he : e.Formed R)
    (htype : e.name.space = .type → e.isType) :
    Declaring.Formed R m
      { d with globals := d.globals.addEntity e, exports := d.exports.addEntity e } where
  module := hd.module
  keyed := Table.forall_mem_put hd.keyed rfl
  scope occ x hx := by
    have hself : (d.globals.addEntity e).entity? e.name = some e := Table.get?_put_self ..
    rcases Scope.mem_lookup_add hx with hx | ⟨rfl, hspace, -⟩
    · obtain ⟨hspace, e', he', htype'⟩ := hd.scope occ x hx
      refine ⟨hspace, ?_⟩
      by_cases hn : x.name = e.name
      · exact ⟨e, hn ▸ hself, htype (hn ▸ hspace)⟩
      · exact ⟨e', (Table.get?_put_of_ne (Ne.symm hn) ..).trans he', htype'⟩
    · exact ⟨hspace, e, hself, htype hspace⟩
  globals := ⟨Table.forall_mem_put hd.globals.entities he, hd.globals.instances⟩
  exports := ⟨Table.forall_mem_put hd.exports.entities ⟨he, htype⟩, hd.exports.instances⟩
  signatures := hd.signatures
  reports := hd.reports

theorem addInstance (hd : d.Formed R m) {i : Instance} (hi : i.Formed R) :
    Declaring.Formed R m
      { d with globals := d.globals.addInstance i, exports := d.exports.addInstance i } :=
  have hsingle := List.forall_mem_singleton.2 hi
  { hd with
    globals := ⟨hd.globals.entities, List.forall_mem_append.2 ⟨hd.globals.instances, hsingle⟩⟩
    exports := ⟨hd.exports.entities, List.forall_mem_append.2 ⟨hd.exports.instances, hsingle⟩⟩ }

theorem declare (hd : d.Formed R m) (places : Table (Namespace × String) Span) {x : Declared}
    (hspace : x.name.space = .value) :
    Declaring.Formed R m { d with
      places := places
      globals := { d.globals with scope := d.globals.scope.add x } } :=
  { hd with
    scope := fun occ y hy => by
      rcases Scope.mem_lookup_add hy with hy | ⟨-, h, -⟩
      · exact hd.scope occ y hy
      · rw [hspace] at h
        cases h
    globals := ⟨hd.globals.entities, hd.globals.instances⟩ }

/-- A name of a type is declared together with what it denotes. -/
theorem introduce (hd : d.Formed R m) (places : Table (Namespace × String) Span) {e : Entity}
    (he : e.Formed R) (htype : e.isType) (loc : Span) :
    Declaring.Formed R m { d with
      places := places
      globals := Globals.addEntity
        { d.globals with scope := d.globals.scope.add ⟨e.name, loc⟩ } e
      exports := d.exports.addEntity e } :=
  have hadded := hd.addEntity he fun _ => htype
  { hadded with
    scope := fun occ x hx => by
      have hself : (d.globals.addEntity e).entity? e.name = some e := Table.get?_put_self ..
      rcases Scope.mem_lookup_add hx with hx | ⟨rfl, hspace, -⟩
      · rcases Scope.mem_lookup_add hx with hx | ⟨rfl, hspace, -⟩
        · obtain ⟨hspace, e', he', htype'⟩ := hd.scope occ x hx
          refine ⟨hspace, ?_⟩
          by_cases hn : x.name = e.name
          · exact ⟨e, hn ▸ hself, htype⟩
          · exact ⟨e', (Table.get?_put_of_ne (Ne.symm hn) ..).trans he', htype'⟩
        · exact ⟨hspace, e, hself, htype⟩
      · exact ⟨hspace, e, hself, htype⟩
    globals := ⟨hadded.globals.entities, hadded.globals.instances⟩ }

/-- What a name of a type means is known. -/
theorem resolve (hd : d.Formed R m) {role : Role} {occ : String} {n : Name}
    (h : Check.resolve d.globals .type role occ = .ok n) :
    (∃ t, d.globals.entity? n = some (.tyCon t) ∧ R n t.tyvars.length) ∨
      ∃ c, d.globals.entity? n = some (.typeClass c) ∧ ∃ k, R n k := by
  unfold Check.resolve at h
  split at h
  · cases h
  · next x hx =>
    cases h
    obtain ⟨-, e, he, htype⟩ := hd.scope occ x (hx ▸ List.mem_singleton_self x)
    obtain ⟨hname, hformed⟩ := hd.of_entity? he
    cases e with
    | tyCon t =>
      rw [hname]
      exact .inl ⟨t, hname ▸ he, hformed⟩
    | typeClass c =>
      rw [hname]
      exact .inr ⟨c, hname ▸ he, hformed.1⟩
    | dataCon | ident => cases htype
  · cases h

end Declaring.Formed

/-- An action of declarations after which what is declared has its arguments, if it had them before
and there is no error that matters. `H` is what is known by then of earlier results. -/
def Shapes (R : Arities) (lax : Prop) (m : Surface.Module) (H : Prop) {α : Type}
    (act : DeclareM α) (Q : α → Prop) : Prop :=
  ∀ d, d.reports ⊆ (act.run d).2.reports ∧ ((act.run d).2.Trusted lax → H → d.Formed R m →
    (act.run d).2.Formed R m ∧ Q (act.run d).1)

namespace Shapes

variable {H : Prop} {α β : Type} {act : DeclareM α} {P Q : α → Prop} {S : β → Prop}

theorem pure {a : α} (h : H → Q a) : Shapes R lax m H (Pure.pure a) Q :=
  fun _ => ⟨fun _ hr => hr, fun _ hH hd => ⟨hd, h hH⟩⟩

theorem bind {f : α → DeclareM β} (h : Shapes R lax m H act P)
    (hf : ∀ a, Shapes R lax m (H ∧ P a) (f a) S) : Shapes R lax m H (act >>= f) S := by
  intro d
  obtain ⟨hact, hd'⟩ := h d
  obtain ⟨hrest, hd''⟩ := hf (act.run d).1 (act.run d).2
  refine ⟨fun _ hr => hrest (hact hr), fun htrust hH hd => ?_⟩
  obtain ⟨hd', hP⟩ := hd' (htrust.of_subset hrest) hH hd
  exact hd'' htrust ⟨hH, hP⟩ hd'

theorem mono (h : Shapes R lax m H act P) (hQ : ∀ a, H → P a → Q a) : Shapes R lax m H act Q :=
  fun d => ⟨(h d).1, fun htrust hH hd =>
    have ⟨hd', hP⟩ := (h d).2 htrust hH hd
    ⟨hd', hQ _ hH hP⟩⟩

theorem given {H' : Prop} (h : Shapes R lax m H act P) (hH : H' → H) : Shapes R lax m H' act P :=
  fun d => ⟨(h d).1, fun htrust hH' => (h d).2 htrust (hH hH')⟩

theorem get : Shapes R lax m H (MonadState.get : DeclareM Declaring) (·.Formed R m) :=
  fun _ => ⟨fun _ hr => hr, fun _ _ hd => ⟨hd, hd⟩⟩

theorem modify {f : Declaring → Declaring} (hreports : ∀ d, (f d).reports = d.reports)
    (h : ∀ d, H → d.Formed R m → (f d).Formed R m) :
    Shapes R lax m H (modify f) fun _ => True :=
  fun d => ⟨fun _ hr => (hreports d).symm ▸ hr, fun _ hH hd => ⟨h d hH hd, trivial⟩⟩

theorem mapM {f : α → DeclareM β} {as : List α} (h : ∀ a ∈ as, Shapes R lax m H (f a) S) :
    Shapes R lax m H (as.mapM f) fun bs => ∀ b ∈ bs, S b := by
  induction as with
  | nil => exact .pure fun _ => by simp
  | cons a as ih =>
    rw [List.mapM_cons]
    refine .bind (h a (List.mem_cons_self ..)) fun _ => .bind
      ((ih fun a' ha' => h a' (List.mem_cons_of_mem _ ha')).given And.left) fun _ => ?_
    exact .pure fun ⟨⟨_, hb⟩, hbs⟩ => List.forall_mem_cons.2 ⟨hb, hbs⟩

theorem forM {f : α → DeclareM PUnit} {as : List α}
    (h : ∀ a ∈ as, Shapes R lax m H (f a) fun _ => True) :
    Shapes R lax m H (as.forM f) fun _ => True := by
  induction as with
  | nil => exact .pure fun _ => trivial
  | cons a as ih =>
    exact .bind (h a (List.mem_cons_self ..)) fun _ =>
      (ih fun a' ha' => h a' (List.mem_cons_of_mem _ ha')).given And.left

end Shapes

namespace Declare

variable {H : Prop}

theorem shapes_report {p : Problem} (hp : H → p.Formed R) (loc : Span) :
    Shapes R lax m H (report p loc) fun _ => p.severity = .error → lax :=
  fun _ => ⟨fun _ hr => List.mem_cons_of_mem _ hr, fun htrust hH hd => ⟨hd.report (hp hH), fun h =>
    htrust.resolve_right fun hno => hno (failed_cons (decide_eq_true h))⟩⟩

theorem shapes_reporting {α : Type} {c : Prop} [Decidable c] {p : Problem} {loc : Span}
    {act : DeclareM α} {Q : α → Prop} (hp : p.Formed R) (h : Shapes R lax m H act Q) :
    Shapes R lax m H (if c then do report p loc; act else act) Q := by
  split
  · exact .bind (shapes_report (fun _ => hp) loc) fun _ => h.given And.left
  · exact h

theorem shapes_addEntity {e : Entity} (he : H → e.Formed R ∧ (e.name.space = .type → e.isType)) :
    Shapes R lax m H (addEntity e) fun _ => True :=
  .modify (fun _ => rfl) fun _ hH hd => hd.addEntity (he hH).1 (he hH).2

theorem shapes_define (occ : String) (loc : Span) :
    Shapes R lax m H (define .value occ loc) fun r => ∀ n ∈ r, n = topName m.name .value occ := by
  intro d
  cases hp : d.places.get? (.value, occ) with
  | some previous =>
    rw [run_define_of_some hp]
    exact ⟨fun _ hr => List.mem_cons_of_mem _ hr,
      fun _ _ hd => ⟨hd.report trivial, fun _ h => by cases h⟩⟩
  | none =>
    rw [run_define_of_none hp]
    refine ⟨fun _ hr => hr, fun _ _ hd => ⟨hd.declare _ rfl, fun n hn => ?_⟩⟩
    rw [← Option.mem_some.1 hn, hd.module]

/-- A name of a type is declared together with what it denotes. -/
theorem shapes_introduce {occ : String} {e : Name → Entity} (hname : ∀ n, (e n).name = n)
    (htype : ∀ n, (e n).isType) (he : (e (topName m.name .type occ)).Formed R) (loc : Span) :
    Shapes R lax m H (do if let some n ← define .type occ loc then addEntity (e n))
      fun _ => True := by
  intro d
  rw [run_bind]
  cases hp : d.places.get? (.type, occ) with
  | some previous =>
    rw [run_define_of_some hp]
    exact ⟨fun _ hr => List.mem_cons_of_mem _ hr, fun _ _ hd => ⟨hd.report trivial, trivial⟩⟩
  | none =>
    rw [run_define_of_none hp]
    refine ⟨fun _ hr => hr, fun _ _ hd => ⟨?_, trivial⟩⟩
    have hadded := hd.introduce (d.places.put (.type, occ) loc) he (htype _) loc
    rw [hname, ← hd.module] at hadded
    exact hadded

-- Types

theorem formed_arityProblem? {occ : String} {given : Nat} {e : Option Entity} {p : Problem}
    (h : arityProblem? occ given e = some p) : p.Formed R := by
  unfold arityProblem? at h
  split at h
  · cases h
    trivial
  · split at h
    · cases h
      trivial
    · split at h <;> cases h
      trivial
  · cases h

section

variable (hR : Permits R lax m)
include hR

theorem of_arityProblem? {d : Declaring} (hd : d.Formed R m) {c : String} {k : Nat}
    {n : Name} (hn : resolve d.globals .type .typeConstructor c = .ok n)
    (hproblem : ∀ p, arityProblem? c k (d.globals.entity? n) = some p → lax) : R n k := by
  rcases hd.resolve hn with ⟨t, ht, harity⟩ | ⟨t, ht, j, hj⟩
  · rw [ht, arityProblem?] at hproblem
    split at hproblem
    · exact hR.loose (hproblem _ rfl) _ _ _ harity
    split at hproblem
    · exact hR.loose (hproblem _ rfl) _ _ _ harity
    · next hless hmore => exact (Nat.le_antisymm (Nat.le_of_not_lt hmore) (Nat.le_of_not_lt hless)) ▸ harity
  · refine hR.loose (hproblem (.classAsType c) ?_) _ _ _ hj
    rw [ht]
    rfl

set_option linter.unusedSectionVars false in
mutual

theorem shapes_typeOf (tyvars : Option (List String)) : ∀ (t : Surface.TypeExpr) {H : Prop},
    t.heads ⊆ m.heads → Shapes R lax m H (typeOf tyvars t) (·.Formed R)
  | .var v l, _, _ => by
    unfold typeOf
    exact shapes_reporting trivial (.pure fun _ => rfl)
  | .fn t u l, _, h => by
    rw [Surface.TypeExpr.heads, List.append_subset] at h
    unfold typeOf
    refine .bind (shapes_typeOf tyvars t h.1) fun t' => .bind (shapes_typeOf tyvars u h.2) fun u' => ?_
    exact .pure fun ⟨⟨_, ht⟩, hu⟩ => Ty.formed_fn hR.builtin ht hu
  | .con c ts l, _, h => by
    rw [Surface.TypeExpr.heads, List.cons_subset] at h
    unfold typeOf
    refine .bind (shapes_typesOf tyvars ts h.2) fun args => ?_
    split
    · next hc =>
      refine .pure fun ⟨_, hlength, hargs⟩ => Ty.formed_conApp.2 ⟨?_, hargs⟩
      rw [hlength]
      exact hR.list _ h.1 hc
    refine .bind .get fun s => ?_
    dsimp only
    split
    · next e he =>
      refine .bind (shapes_report (fun _ => formed_of_resolve he) l) fun _ => .pure ?_
      refine fun ⟨⟨⟨_, hlength, hargs⟩, hs⟩, herror⟩ => Ty.formed_conApp.2 ⟨?_, hargs⟩
      rw [hs.module, hlength]
      exact hR.missing (herror (isError_of_resolve he)) _ h.1
    next n hn =>
    split
    · next p hp =>
      refine .bind (shapes_report (fun _ => formed_arityProblem? hp) l) fun _ => .pure ?_
      refine fun ⟨⟨⟨_, _, hargs⟩, hs⟩, herror⟩ => Ty.formed_conApp.2 ⟨?_, hargs⟩
      exact of_arityProblem? hR hs hn fun _ _ => herror (isError_of_arityProblem? hp)
    · next hnone =>
      refine .pure fun ⟨⟨_, _, hargs⟩, hs⟩ => Ty.formed_conApp.2 ⟨?_, hargs⟩
      exact of_arityProblem? hR hs hn fun p hp => by rw [hnone] at hp; cases hp

theorem shapes_typesOf (tyvars : Option (List String)) : ∀ (ts : List Surface.TypeExpr) {H : Prop},
    Surface.TypeExpr.headsOf ts ⊆ m.heads →
      Shapes R lax m H (typesOf tyvars ts) fun us => us.length = ts.length ∧ ∀ u ∈ us, u.Formed R
  | [], _, _ => by
    unfold typesOf
    exact .pure fun _ => by simp
  | t :: ts, _, h => by
    rw [Surface.TypeExpr.headsOf, List.append_subset] at h
    unfold typesOf
    refine .bind (shapes_typeOf tyvars t h.1) fun u => .bind (shapes_typesOf tyvars ts h.2) fun us => ?_
    exact .pure fun ⟨⟨_, hu⟩, hlength, hus⟩ => ⟨by simp [hlength], List.forall_mem_cons.2 ⟨hu, hus⟩⟩

end

omit hR in
theorem shapes_classOf (occ : String) (loc : Span) :
    Shapes R lax m H (classOf occ loc) fun _ => True := by
  unfold classOf
  refine .bind .get fun s => ?_
  dsimp only
  split
  · next he =>
    exact .bind (shapes_report (fun _ => formed_of_resolve he) _) fun _ => .pure fun _ => trivial
  split
  · exact .pure fun _ => trivial
  · exact .bind (shapes_report (p := .notAClass occ) (fun _ => trivial) _) fun _ =>
      .pure fun _ => trivial

omit hR in
theorem shapes_predOf (p : Surface.PredExpr) :
    Shapes R lax m H (predOf p) fun r => ∀ q ∈ r, q.arg = .var p.tyvar :=
  .bind (shapes_classOf _ _) fun _ => .pure fun _ q hq => by
    obtain ⟨n, -, rfl⟩ := Option.map_eq_some_iff.1 hq
    rfl

theorem shapes_schemeOf (q : Surface.QualType) (h : q.body.heads ⊆ m.heads) :
    Shapes R lax m H (schemeOf q) (Scheme.Formed R) := by
  refine .bind (shapes_typeOf hR none q.body h) fun body => ?_
  refine .bind (.mapM (S := fun r => ∀ x ∈ r, ∃ v, x.arg = .var v) fun p _ =>
    (shapes_predOf p).mono fun r _ hr x hx => ⟨_, hr x hx⟩) fun rs => .pure ?_
  refine fun ⟨⟨_, hbody⟩, hrs⟩ => ⟨hbody, fun p hp => ?_⟩
  obtain ⟨r, hr, hmem⟩ := List.mem_filterMap.1 hp
  obtain ⟨v, hv⟩ := hrs r hr p hmem
  rw [hv]
  rfl

-- Declarations

theorem shapes_typeName {decl : Surface.Decl} (hdecl : decl ∈ m.decls) :
    Shapes R lax m H (typeName decl) fun _ => True := by
  cases decl with
  | data d =>
    exact shapes_introduce (e := fun n => .tyCon ⟨n, d.nameLoc, d.tyvars, []⟩) (fun _ => rfl)
      (fun _ => rfl) (hR.data d hdecl) _
  | cls c =>
    exact shapes_introduce (e := fun n => .typeClass ⟨n, c.nameLoc, c.tyvar, []⟩) (fun _ => rfl)
      (fun _ => rfl) ⟨hR.cls c hdecl, fun _ h => absurd h List.not_mem_nil⟩ _
  | _ => exact .pure fun _ => trivial

theorem shapes_dataCon {d : Surface.DataDecl} {parent : Name}
    (hparent : H → R parent d.tyvars.length) {c : Surface.ConDecl}
    (hc : Surface.TypeExpr.headsOf c.args ⊆ m.heads) :
    Shapes R lax m H (dataCon d parent c) fun _ => True := by
  refine .bind (shapes_typesOf hR _ c.args hc) fun args => .bind (shapes_define _ _) fun r => ?_
  cases r with
  | none => exact .pure fun _ => trivial
  | some n =>
    refine .bind (shapes_addEntity ?_) fun _ => .pure fun _ => trivial
    intro ⟨⟨hH, _, hargs⟩, hn⟩
    have hresult : (Ty.conApp parent (d.tyvars.map .var)).Formed R := by
      refine Ty.formed_conApp.2 ⟨?_, List.forall_mem_map.2 fun _ _ => rfl⟩
      rw [List.length_map]
      exact hparent hH
    refine ⟨⟨⟨Ty.formed_fns hR.builtin hargs hresult, ?_⟩, hargs⟩, fun hspace => ?_⟩
    · exact fun _ h => absurd h List.not_mem_nil
    · rw [show n = _ from hn n rfl] at hspace
      cases hspace

theorem shapes_dataCons {d : Surface.DataDecl} (hd : .data d ∈ m.decls) :
    Shapes R lax m H (dataCons d) fun _ => True := by
  unfold dataCons
  refine .bind .get fun s => ?_
  dsimp only
  split
  · next t ht =>
    split
    · have hname (hs : s.Formed R m) : topName m.name .type d.name = t.name := by
        rw [← hs.module]
        exact (hs.of_entity? ht).1
      refine .bind (.mapM fun c hc => shapes_dataCon hR (fun ⟨_, hs⟩ => hname hs ▸ hR.data d hd)
        fun p hp => ?_) fun cons => shapes_addEntity ?_
      · rw [Surface.TypeExpr.headsOf_eq] at hp
        obtain ⟨u, hu, hp⟩ := List.mem_flatMap.1 hp
        exact Surface.Module.mem_heads hd (List.mem_flatMap.2 ⟨c, hc, hu⟩) hp
      · exact fun ⟨⟨_, hs⟩, _⟩ => ⟨(hs.of_entity? ht).2, fun _ => rfl⟩
    · exact .pure fun _ => trivial
  · exact .pure fun _ => trivial

omit hR in
theorem shapes_method (cls : Name) {s : Scheme} (hs : H → s.Formed R) (name : String × Span) :
    Shapes R lax m H (method cls s name) fun r => ∀ x ∈ r, x.scheme = s := by
  refine .bind (shapes_define _ _) fun r => ?_
  cases r with
  | none => exact .pure fun _ => by simp
  | some n =>
    refine .bind (shapes_addEntity fun ⟨hH, hn⟩ => ⟨hs hH, fun hspace => ?_⟩) fun _ =>
      .pure fun _ => by simp
    rw [show n = _ from hn n rfl] at hspace
    cases hspace

theorem shapes_methodSig (c : Surface.ClassDecl) (cls : Name) {sig : Surface.TypeSig}
    (h : sig.ty.body.heads ⊆ m.heads) :
    Shapes R lax m H (methodSig c cls sig) fun ms => ∀ x ∈ ms, x.scheme.Formed R := by
  refine shapes_reporting trivial (.bind (shapes_typeOf hR none _ h) fun body => ?_)
  refine shapes_reporting trivial (.bind (.mapM fun name _ => shapes_method cls ?_ name) fun rs => ?_)
  · refine fun ⟨_, hbody⟩ => ⟨hbody, List.forall_mem_singleton.2 rfl⟩
  · refine .pure fun ⟨⟨_, hbody⟩, hrs⟩ x hx => ?_
    obtain ⟨r, hr, hx⟩ := List.mem_filterMap.1 hx
    rw [hrs r hr x hx]
    exact ⟨hbody, List.forall_mem_singleton.2 rfl⟩

theorem shapes_classMethods {c : Surface.ClassDecl} (hc : .cls c ∈ m.decls) :
    Shapes R lax m H (classMethods c) fun _ => True := by
  unfold classMethods
  refine .bind .get fun s => ?_
  dsimp only
  split
  · next t ht =>
    split
    · refine .bind (.mapM fun sig hsig => shapes_methodSig hR c _
        (Surface.Module.mem_heads hc (List.mem_map_of_mem hsig))) fun ms => shapes_addEntity ?_
      refine fun ⟨⟨_, hs⟩, hms⟩ => ⟨⟨(hs.of_entity? ht).2.1, fun x hx => ?_⟩, fun _ => rfl⟩
      obtain ⟨xs, hxs, hx⟩ := List.mem_flatten.1 hx
      exact hms xs hxs x hx
    · exact .pure fun _ => trivial
  · exact .pure fun _ => trivial

theorem shapes_primitive {p : Surface.PrimDecl} (hp : .prim p ∈ m.decls) :
    Shapes R lax m H (primitive p) fun _ => True := by
  refine .bind (shapes_schemeOf hR _ (Surface.Module.mem_heads hp (List.mem_singleton_self _)))
    fun s => .forM fun name _ => .bind (shapes_define _ _) fun r => ?_
  cases r with
  | none => exact .pure fun _ => trivial
  | some n =>
    refine shapes_addEntity fun ⟨⟨_, hs⟩, hn⟩ => ⟨hs, fun hspace => ?_⟩
    rw [show n = _ from hn n rfl] at hspace
    cases hspace

theorem shapes_valueNames {decl : Surface.Decl} (hdecl : decl ∈ m.decls) :
    Shapes R lax m H (valueNames decl) fun _ => True := by
  cases decl with
  | data d => exact shapes_dataCons hR hdecl
  | cls c => exact shapes_classMethods hR hdecl
  | prim p => exact shapes_primitive hR hdecl
  | bind b =>
    exact .forM fun name _ => .bind (shapes_define _ _) fun _ => .pure fun _ => trivial
  | sig | fixity | inst => exact .pure fun _ => trivial

omit hR in
theorem formed_signatureProblem? {signed : List String} {occ : String} {p : Problem}
    (h : signatureProblem? m signed occ = some p) : p.Formed R := by
  unfold signatureProblem? at h
  split at h
  · cases h
    trivial
  · split at h
    · cases h
      trivial
    · split at h <;> cases h
      trivial

theorem shapes_signature {decl : Surface.Decl} (hdecl : decl ∈ m.decls) :
    Shapes R lax m H (signature m decl) fun _ => True := by
  cases decl with
  | sig d =>
    refine .bind (shapes_schemeOf hR _ (Surface.Module.mem_heads hdecl (List.mem_singleton_self _)))
      fun scheme => .forM fun name _ s => ?_
    simp only [StateT.run_bind, StateT.run_get, pure_bind]
    split
    · next hp =>
      exact (shapes_report (fun _ => formed_signatureProblem? hp) name.2).mono
        (fun _ _ _ => trivial) s
    · refine ⟨fun _ hr => hr, fun _ ⟨_, hscheme⟩ hs => ⟨?_, trivial⟩⟩
      have hput : Declaring.Formed R m { s with signatures := s.signatures.put name.1 scheme } :=
        { hs with signatures := Table.forall_mem_put hs.signatures hscheme }
      exact hput.addEntity hscheme fun hspace => by cases hspace
  | _ => exact .pure fun _ => trivial

omit hR in
theorem shapes_contextPred (tyvars : List String) (p : Surface.PredExpr) :
    Shapes R lax m H (contextPred tyvars p) fun r => ∀ q ∈ r, ∃ v ∈ tyvars, q.arg = .var v := by
  refine .bind (shapes_predOf p) fun r => ?_
  cases r with
  | none => exact .pure fun _ => by simp
  | some q =>
    dsimp only
    split
    · next hp =>
      refine .pure fun ⟨_, hq⟩ q' hq' => ⟨p.tyvar, hp, ?_⟩
      exact Option.mem_some.1 hq' ▸ hq q rfl
    · exact .bind (shapes_report (p := .notInScope ..) (fun _ => trivial) _) fun _ =>
        .pure fun _ => by simp

omit hR in
theorem length_of_headTyvars? {t : Surface.TypeExpr} {vs : List String}
    (h : headTyvars? t = some vs) : ∃ c ts l, t = .con c ts l ∧ ts.length = vs.length := by
  have hmapM {f : Surface.TypeExpr → Option String} {ts : List Surface.TypeExpr} {vs : List String}
      (h : ts.mapM f = some vs) : ts.length = vs.length := by
    induction ts generalizing vs with
    | nil =>
      cases h
      rfl
    | cons t ts ih =>
      simp only [List.mapM_cons, Option.bind_eq_bind, Option.bind_eq_some_iff, pure,
        Option.some.injEq] at h
      obtain ⟨v, -, vs, hvs, rfl⟩ := h
      exact congrArg (· + 1) (ih hvs)
  cases t with
  | con c ts l =>
    obtain ⟨ws, hws, hnodup⟩ := Option.bind_eq_some_iff.1 h
    split at hnodup
    · exact ⟨c, ts, l, rfl, Option.some.inj hnodup ▸ hmapM hws⟩
    · cases hnodup
  | _ => cases h

/-- The head of an instance is a constructor at its variables. -/
theorem shapes_head {t : Surface.TypeExpr} (ht : t.heads ⊆ m.heads) {vs : List String}
    (h : headTyvars? t = some vs) : Shapes R lax m H (typeOf none t) fun u =>
      u.Formed R ∧ ∃ n us, u = .conApp n us ∧ us.length = vs.length := by
  obtain ⟨c, ts, l, rfl, hlength⟩ := length_of_headTyvars? h
  intro d
  obtain ⟨hsub, hd⟩ := shapes_typeOf hR none _ ht d
  obtain ⟨n, us, d', hrun, hus, -, -⟩ := run_typeOf_con none c ts l d
  refine ⟨hsub, fun htrust hH hd' => ?_⟩
  obtain ⟨hd'', hformed⟩ := hd htrust hH hd'
  exact ⟨hd'', hformed, n, us, congrArg Prod.fst hrun, hus.trans hlength⟩

theorem shapes_inst {d : Surface.InstanceDecl} (hd : .inst d ∈ m.decls) :
    Shapes R lax m H (inst d) fun r => ∀ i ∈ r, i.Formed R := by
  refine .bind (shapes_classOf _ _) fun r => ?_
  cases r with
  | none => exact .pure fun _ => by simp
  | some cls =>
    dsimp only
    split
    · exact .bind (shapes_report (p := .illegalHead _) (fun _ => trivial) _) fun _ =>
        .pure fun _ => by simp
    next tyvars htyvars =>
    have hheads := Surface.Module.mem_heads hd (List.mem_singleton_self _)
    refine .bind (shapes_head hR hheads htyvars) fun headTy => ?_
    refine .bind (.mapM fun p _ => shapes_contextPred tyvars p) fun qs s => ?_
    simp only [StateT.run_bind, StateT.run_get, pure_bind]
    split
    · next held _ =>
      have hreport : Shapes R lax m (headTy.Formed R)
          (report (.instanceTwice d.cls headTy held.loc) d.loc) fun _ => True :=
        (shapes_report (fun h => h) _).mono fun _ _ _ => trivial
      obtain ⟨hsub, h⟩ := hreport s
      refine ⟨hsub, fun htrust ⟨⟨_, hhead, _⟩, _⟩ hs => ?_⟩
      exact ⟨(h htrust hhead hs).1, fun _ hi => by cases hi⟩
    · refine ⟨fun _ hr => hr, fun _ ⟨⟨_, hhead, n, us, hus, hlength⟩, hqs⟩ hs => ?_⟩
      have hi : ∀ i : Instance, i.head = n → i.tyvars = tyvars → i.context = qs.filterMap id →
          i.Formed R := by
        rintro i rfl rfl hcontext
        refine ⟨⟨nodup_of_headTyvars? htyvars, fun q hq => ?_⟩, ?_⟩
        · rw [hcontext] at hq
          obtain ⟨r, hr, hq⟩ := List.mem_filterMap.1 hq
          exact hqs r hr q hq
        · rw [hus, Ty.formed_conApp, hlength] at hhead
          exact hhead.1
      have hname : (headTy.unconApp?.map (·.1)).getD cls = n := by
        rw [hus, Ty.unconApp?_conApp]
        rfl
      exact ⟨hs.addInstance (hi _ hname rfl rfl), fun i h => Option.mem_some.1 h ▸ hi _ hname rfl rfl⟩

omit hR in
theorem shapes_fixity (d : Surface.FixityDecl) : Shapes R lax m H (fixity d) fun _ => True := by
  refine .forM fun op _ s => ?_
  simp only [StateT.run_bind, StateT.run_get, pure_bind]
  split
  · exact (shapes_report (p := .fixityWithoutBinding op) (fun _ => trivial) d.loc).mono
      (fun _ _ _ => trivial) s
  split
  · exact (shapes_report (p := .fixityTwice op) (fun _ => trivial) d.loc).mono
      (fun _ _ _ => trivial) s
  · refine ⟨fun _ hr => hr, fun _ _ hs => ⟨?_, trivial⟩⟩
    exact { hs with
      globals := ⟨hs.globals.entities, hs.globals.instances⟩
      exports := ⟨hs.exports.entities, hs.exports.instances⟩ }

theorem shapes_instancesAndFixities {decls : List Surface.Decl} (hdecls : decls ⊆ m.decls) :
    Shapes R lax m H (instancesAndFixities decls) fun is => ∀ p ∈ is, p.1.Formed R := by
  induction decls generalizing H with
  | nil => exact .pure fun _ => by simp
  | cons decl decls ih =>
    obtain ⟨hdecl, hdecls'⟩ := List.cons_subset.1 hdecls
    cases decl with
    | inst d =>
      refine .bind (shapes_inst hR hdecl) fun r => .bind (ih hdecls') fun is => .pure ?_
      intro ⟨⟨_, hr⟩, his⟩
      cases r with
      | none => exact his
      | some i => exact List.forall_mem_cons.2 ⟨hr i rfl, his⟩
    | fixity d => exact .bind (shapes_fixity d) fun _ => ih hdecls'
    | _ => exact ih hdecls'

omit hR in
theorem formed_listEntities (hR : R.Builtin) :
    ∀ e ∈ listEntities, e.Formed R ∧ (e.name.space = .type → e.isType) := by
  have ha : (Ty.var "a").Formed R := rfl
  have hlist : (Ty.list (.var "a")).Formed R := Ty.formed_list hR ha
  have hcons : ∀ t ∈ [.var "a", Ty.list (.var "a")], t.Formed R :=
    List.forall_mem_cons.2 ⟨ha, List.forall_mem_singleton.2 hlist⟩
  have hscheme {t : Ty} (ht : t.Formed R) : Scheme.Formed R ⟨["a"], [], t⟩ :=
    ⟨ht, fun _ h => absurd h List.not_mem_nil⟩
  refine List.forall_mem_cons.2 ⟨⟨hR.list, fun _ => rfl⟩, List.forall_mem_cons.2 ⟨⟨?_, ?_⟩,
    List.forall_mem_singleton.2 ⟨?_, ?_⟩⟩⟩
  · exact ⟨hscheme hlist, fun _ h => absurd h List.not_mem_nil⟩
  · exact fun h => by cases h
  · exact ⟨hscheme (Ty.formed_fns hR hcons hlist), hcons⟩
  · exact fun h => by cases h

/-- All declarations of a module. -/
theorem shapes_all : Shapes R lax m H (all m) fun is => ∀ p ∈ is, p.1.Formed R := by
  have hwireIn : ∀ e ∈ listEntities, Shapes R lax m H (wireIn e) fun _ => True := fun e he =>
    .bind (.modify (fun _ => rfl) fun _ _ hd => { hd with }) fun _ =>
      shapes_addEntity fun _ => formed_listEntities hR.builtin e he
  have hrest {H : Prop} : Shapes R lax m H (do
      m.decls.forM typeName
      m.decls.forM valueNames
      m.decls.forM (signature m)
      instancesAndFixities m.decls) fun is => ∀ p ∈ is, p.1.Formed R :=
    .bind (.forM fun _ h => shapes_typeName hR h) fun _ =>
      .bind (.forM fun _ h => shapes_valueNames hR h) fun _ =>
        .bind (.forM fun _ h => shapes_signature hR h) fun _ =>
          shapes_instancesAndFixities hR fun _ h => h
  unfold all
  split
  · exact .bind (.forM hwireIn) fun _ => hrest
  · exact hrest

end

end Declare

end Check

end TypeLens
