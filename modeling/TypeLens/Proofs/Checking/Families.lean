import TypeLens.Proofs.Checking.Visibility

/-!
Types with their constructors and classes with their methods. While a module declares them, its
constructors and methods are known before their type or class lists them; once it is declared, and
whatever its bindings add, parents and children agree on each other.
-/

namespace TypeLens

/-- The constructors of a type, the methods of a class. -/
def Entity.children : Entity → List Entity
  | .tyCon t => t.dataCons.map .dataCon
  | .typeClass c => c.methods.map .ident
  | _ => []

/-- What is listed is there and knows its parent, and parents list it once; only the parent `p` need
not list those yet that are `expected`. -/
structure Families (t : Table Name Entity) (p : Name) (expected : List Entity) : Prop where
  named : ∀ n e, t.get? n = some e → n = e.name
  listed : ∀ n e, t.get? n = some e → ∀ c ∈ e.children, t.get? c.name = some c ∧ c.parent? = some n
  parents : ∀ n e q, t.get? n = some e → e.parent? = some q →
    (∃ f, t.get? q = some f ∧ f.children.count e = 1) ∨ q = p ∧ expected.count e = 1
  expected : ∀ c ∈ expected, t.get? c.name = some c ∧ c.parent? = some p

/-- An entity that belongs to no family. -/
def Entity.Single (e : Entity) : Prop := e.children = [] ∧ e.parent? = none

namespace Families

variable {t : Table Name Entity} {p : Name} {expected : List Entity}

/-- An entity outside all families may come, and take the place of another such entity. -/
theorem put_single (h : Families t p expected) {e : Entity} (he : e.Single)
    (hold : ∀ f, t.get? e.name = some f → f.Single) : Families (t.put e.name e) p expected := by
  have hother {c : Entity} {q : Name} (hc : t.get? c.name = some c) (hq : c.parent? = some q) :
      (t.put e.name e).get? c.name = some c := by
    rw [Table.get?_put_of_ne fun hname => ?_, hc]
    rw [(hold c (hname ▸ hc)).2] at hq
    cases hq
  refine ⟨fun n f hf => ?_, fun n f hf c hc => ?_, fun n f q hf hq => ?_, fun c hc => ?_⟩
  · rcases Table.eq_or_of_get?_put hf with ⟨rfl, rfl⟩ | ⟨-, hf⟩
    · rfl
    · exact h.named n f hf
  · rcases Table.eq_or_of_get?_put hf with ⟨rfl, rfl⟩ | ⟨-, hf⟩
    · rw [he.1] at hc
      cases hc
    · obtain ⟨hc, hparent⟩ := h.listed n f hf c hc
      exact ⟨hother hc hparent, hparent⟩
  · rcases Table.eq_or_of_get?_put hf with ⟨rfl, rfl⟩ | ⟨-, hf⟩
    · rw [he.2] at hq
      cases hq
    · refine (h.parents n f q hf hq).imp_left fun ⟨g, hg, hcount⟩ => ⟨g, ?_, hcount⟩
      rw [Table.get?_put_of_ne fun hname => ?_, hg]
      rw [(hold g (hname ▸ hg)).1] at hcount
      cases hcount
  · exact ⟨hother (h.expected c hc).1 (h.expected c hc).2, (h.expected c hc).2⟩

/-- A new child of `p` is expected until `p` lists it. -/
theorem put_child (h : Families t p expected) {e : Entity} (hnew : t.get? e.name = none)
    (hchildren : e.children = []) (hparent : e.parent? = some p) :
    Families (t.put e.name e) p (expected ++ [e]) := by
  have hother {n : Name} {f : Entity} (hf : t.get? n = some f) :
      (t.put e.name e).get? n = some f := by
    rw [Table.get?_put_of_ne fun hname => ?_, hf]
    rw [← hname, hnew] at hf
    cases hf
  refine ⟨fun n f hf => ?_, fun n f hf c hc => ?_, fun n f q hf hq => ?_, fun c hc => ?_⟩
  · rcases Table.eq_or_of_get?_put hf with ⟨rfl, rfl⟩ | ⟨-, hf⟩
    · rfl
    · exact h.named n f hf
  · rcases Table.eq_or_of_get?_put hf with ⟨rfl, rfl⟩ | ⟨-, hf⟩
    · rw [hchildren] at hc
      cases hc
    · obtain ⟨hc, hp⟩ := h.listed n f hf c hc
      exact ⟨hother hc, hp⟩
  · rcases Table.eq_or_of_get?_put hf with ⟨rfl, rfl⟩ | ⟨hne, hf⟩
    · obtain rfl := Option.some.inj (hparent.symm.trans hq)
      have hout : e ∉ expected := fun hc => by
        rw [(h.expected e hc).1] at hnew
        cases hnew
      refine .inr ⟨rfl, ?_⟩
      rw [List.count_append, List.count_eq_zero.2 hout, List.count_singleton_self]
    · refine (h.parents n f q hf hq).imp (fun ⟨g, hg, hcount⟩ => ⟨g, hother hg, hcount⟩) ?_
      rintro ⟨rfl, hcount⟩
      have hf' : e ≠ f := fun heq => hne (heq ▸ (h.named n f hf).symm)
      refine ⟨rfl, ?_⟩
      rw [List.count_append, hcount, List.count_singleton, if_neg (by simpa using hf')]
  · rcases List.mem_append.1 hc with hc | hc
    · exact ⟨hother (h.expected c hc).1, (h.expected c hc).2⟩
    · obtain rfl := List.mem_singleton.1 hc
      exact ⟨Table.get?_put_self .., hparent⟩

/-- A parent that had no children lists those that were expected. -/
theorem put_parent {e : Entity} (h : Families t e.name e.children)
    (hold : ∀ f, t.get? e.name = some f → f.Single) (hparent : e.parent? = none) (p : Name) :
    Families (t.put e.name e) p [] := by
  have hother {c : Entity} {q : Name} (hc : t.get? c.name = some c) (hq : c.parent? = some q) :
      (t.put e.name e).get? c.name = some c := by
    rw [Table.get?_put_of_ne fun hname => ?_, hc]
    rw [(hold c (hname ▸ hc)).2] at hq
    cases hq
  refine ⟨fun n g hg => ?_, fun n g hg c hc => ?_, fun n g q hg hq => ?_, fun c hc => by cases hc⟩
  · rcases Table.eq_or_of_get?_put hg with ⟨rfl, rfl⟩ | ⟨-, hg⟩
    · rfl
    · exact h.named n g hg
  · rcases Table.eq_or_of_get?_put hg with ⟨rfl, rfl⟩ | ⟨-, hg⟩
    · obtain ⟨hc, hp⟩ := h.expected c hc
      exact ⟨hother hc hp, hp⟩
    · obtain ⟨hc, hp⟩ := h.listed n g hg c hc
      exact ⟨hother hc hp, hp⟩
  · rcases Table.eq_or_of_get?_put hg with ⟨rfl, rfl⟩ | ⟨-, hg⟩
    · rw [hparent] at hq
      cases hq
    · refine .inl ?_
      rcases h.parents n g q hg hq with ⟨k, hk, hcount⟩ | ⟨rfl, hcount⟩
      · refine ⟨k, ?_, hcount⟩
        rw [Table.get?_put_of_ne fun hname => ?_, hk]
        rw [(hold k (hname ▸ hk)).1] at hcount
        cases hcount
      · exact ⟨e, Table.get?_put_self .., hcount⟩

theorem expect (h : Families t p []) (q : Name) : Families t q [] where
  named := h.named
  listed := h.listed
  parents n e r hn hr := .inl ((h.parents n e r hn hr).resolve_right fun h => by cases h.2)
  expected c hc := by cases hc

end Families

namespace Check

/-- What is declared of a module, in families but for the children of `p` that are `expected`. What
is declared of the names in `loose` is outside all families: types and classes without children so
far, and what bindings define. -/
structure Declaring.Orderly (m : Surface.Module) (loose : List (Namespace × String)) (p : Name)
    (expected : List Entity) (d : Declaring) : Prop where
  module : d.globals.module = m.name
  known : ∀ n, n.module = m.name → d.globals.entity? n = d.exports.entities.get? n
  placed : ∀ n e, d.exports.entities.get? n = some e →
    n.module = m.name ∧ d.places.contains (n.space, n.occ) = true
  families : Families d.exports.entities p expected
  loose : ∀ k ∈ loose, d.places.contains k = true ∧
    ∀ e, d.exports.entities.get? (topName m.name k.1 k.2) = some e → e.Single

variable {m : Surface.Module} {loose loose' : List (Namespace × String)} {p p' : Name}
  {expected expected' : List Entity} {d d' : Declaring} {space : Namespace} {occ : String}

namespace Declaring.Orderly

theorem congr (hd : d.Orderly m loose p expected)
    (hmodule : d'.globals.module = d.globals.module)
    (hglobals : d'.globals.entities = d.globals.entities)
    (hexports : d'.exports.entities = d.exports.entities) (hplaces : d'.places = d.places) :
    d'.Orderly m loose p expected := by
  refine ⟨hmodule.trans hd.module, fun n hn => ?_, ?_, ?_, ?_⟩
  · rw [Globals.entity?, hglobals, hexports]
    exact hd.known n hn
  · rw [hexports, hplaces]
    exact hd.placed
  · exact hexports ▸ hd.families
  · rw [hexports, hplaces]
    exact hd.loose

/-- A name without a place denotes nothing. -/
theorem get?_of_place (hd : d.Orderly m loose p expected)
    (h : d.places.get? (space, occ) = none) :
    d.exports.entities.get? (topName m.name space occ) = none := by
  cases he : d.exports.entities.get? (topName m.name space occ) with
  | none => rfl
  | some e =>
    have hplace : d.places.contains (space, occ) = true := (hd.placed _ e he).2
    rw [Table.contains, h] at hplace
    cases hplace

/-- An entity of the module is added to what is known and to what is exported. -/
theorem add (hd : d.Orderly m loose p expected) {e : Entity} (hown : e.name.module = m.name)
    (hmodule : d'.globals.module = d.globals.module)
    (hglobals : d'.globals.entities = d.globals.entities.put e.name e)
    (hexports : d'.exports.entities = d.exports.entities.put e.name e)
    (hplaces : ∀ k, d.places.contains k = true → d'.places.contains k = true)
    (hplace : d'.places.contains (e.name.space, e.name.occ) = true)
    (hfamilies : Families (d.exports.entities.put e.name e) p' expected')
    (hloose : ∀ k ∈ loose', e.name = topName m.name k.1 k.2 ∧ e.Single ∨
      e.name ≠ topName m.name k.1 k.2 ∧ k ∈ loose) :
    d'.Orderly m loose' p' expected' where
  module := hmodule.trans hd.module
  known n hn := by
    rw [Globals.entity?, hglobals, hexports, Table.get?_put, Table.get?_put, ← hd.known n hn]
    rfl
  placed n f hf := by
    rw [hexports] at hf
    rcases Table.eq_or_of_get?_put hf with ⟨rfl, rfl⟩ | ⟨-, hf⟩
    · exact ⟨hown, hplace⟩
    · exact ⟨(hd.placed n f hf).1, hplaces _ (hd.placed n f hf).2⟩
  families := hexports ▸ hfamilies
  loose k hk := by
    rw [hexports, Table.get?_put]
    rcases hloose k hk with ⟨hname, he⟩ | ⟨hname, hk⟩
    · rw [if_pos hname]
      refine ⟨?_, fun f hf => Option.some.inj hf ▸ he⟩
      rw [hname] at hplace
      exact hplace
    · rw [if_neg hname]
      exact ⟨hplaces _ (hd.loose k hk).1, (hd.loose k hk).2⟩

/-- A new name comes together with what it denotes. -/
theorem declare (hd : d.Orderly m loose p expected) {e : Entity}
    (hname : e.name = topName m.name space occ) (hplace : d.places.get? (space, occ) = none)
    (hfamilies : Families (d.exports.entities.put e.name e) p expected') :
    { d with
      places := d.places.put (space, occ) e.loc
      globals := Globals.addEntity
        { d.globals with scope := d.globals.scope.add ⟨e.name, e.loc⟩ } e
      exports := d.exports.addEntity e }.Orderly m loose p expected' := by
  refine hd.add (e := e) (hname ▸ rfl) rfl rfl rfl (fun k hk => Table.contains_put.2 (.inr hk))
    (Table.contains_put.2 (.inl ?_)) hfamilies fun k hk => .inr ⟨fun hname' => ?_, hk⟩
  · rw [hname]
    rfl
  · rw [hname, topName, topName, Name.mk.injEq] at hname'
    obtain ⟨rfl, -, rfl, -⟩ := hname'
    have hcontains := (hd.loose k hk).1
    rw [Table.contains, show d.places.get? k = none from hplace] at hcontains
    cases hcontains

theorem declare_single (hd : d.Orderly m loose p expected) {e : Entity}
    (hname : e.name = topName m.name space occ) (hplace : d.places.get? (space, occ) = none)
    (he : e.Single) :
    { d with
      places := d.places.put (space, occ) e.loc
      globals := Globals.addEntity
        { d.globals with scope := d.globals.scope.add ⟨e.name, e.loc⟩ } e
      exports := d.exports.addEntity e }.Orderly m (loose ++ [(space, occ)]) p expected := by
  have hfamilies := hd.families.put_single he fun f hf => by
    rw [hname, hd.get?_of_place hplace] at hf
    cases hf
  have hd' := hd.declare hname hplace hfamilies
  refine { hd' with loose := List.forall_mem_append.2 ⟨hd'.loose, List.forall_mem_singleton.2 ?_⟩ }
  refine ⟨Table.contains_put.2 (.inl rfl), fun f hf => ?_⟩
  have hput : (d.exports.entities.put e.name e).get? (topName m.name space occ) = some f := hf
  rw [hname, Table.get?_put_self] at hput
  exact Option.some.inj hput ▸ he

theorem declare_child (hd : d.Orderly m loose p expected) {e : Entity}
    (hname : e.name = topName m.name space occ) (hplace : d.places.get? (space, occ) = none)
    (hchildren : e.children = []) (hparent : e.parent? = some p) :
    { d with
      places := d.places.put (space, occ) e.loc
      globals := Globals.addEntity
        { d.globals with scope := d.globals.scope.add ⟨e.name, e.loc⟩ } e
      exports := d.exports.addEntity e }.Orderly m loose p (expected ++ [e]) :=
  hd.declare hname hplace
    (hd.families.put_child (hname ▸ hd.get?_of_place hplace) hchildren hparent)

/-- A type or a class lists its children and is no longer loose. -/
theorem complete {e : Entity} (hd : d.Orderly m loose e.name e.children)
    (hname : e.name = topName m.name .type occ) (hk : (.type, occ) ∈ loose)
    (hparent : e.parent? = none) (hout : ∀ k ∈ loose', k ∈ loose ∧ k ≠ (.type, occ)) :
    { d with globals := d.globals.addEntity e, exports := d.exports.addEntity e }.Orderly m loose'
      p [] := by
  obtain ⟨hplace, hold⟩ := hd.loose _ hk
  rw [← hname] at hold
  refine hd.add (e := e) (hname ▸ rfl) rfl rfl rfl (fun _ hk => hk) ?_
    (hd.families.put_parent hold hparent p) fun k hk => .inr ⟨fun h => ?_, (hout k hk).1⟩
  · rw [hname]
    exact hplace
  · rw [hname, topName, topName, Name.mk.injEq] at h
    exact (hout k hk).2 (Prod.ext h.2.2.1.symm h.1.symm)

/-- What a binding defines becomes known, or known anew. -/
theorem identify (hd : d.Orderly m loose p expected) (hk : (.value, occ) ∈ loose)
    {i : Identifier} (hname : i.name = topName m.name .value occ) (hparent : i.parent = none) :
    { d with
      globals := d.globals.addEntity (.ident i)
      exports := d.exports.addEntity (.ident i) }.Orderly m loose p expected := by
  have hsingle : (Entity.ident i).Single := ⟨rfl, hparent⟩
  obtain ⟨hplace, hold⟩ := hd.loose _ hk
  rw [← hname] at hold
  refine hd.add (e := .ident i) (congrArg Name.module hname) rfl rfl rfl (fun _ hk => hk) ?_
    (hd.families.put_single hsingle hold) fun k hk => ?_
  · show d.places.contains (i.name.space, i.name.occ) = true
    rw [hname]
    exact hplace
  · by_cases h : i.name = topName m.name k.1 k.2
    · exact .inl ⟨h, hsingle⟩
    · exact .inr ⟨h, hk⟩

/-- A new name of a binding has a place and denotes nothing. -/
theorem bind (hd : d.Orderly m loose p expected) (loc : Span) {scope : Scope}
    (hscope : scope.module = d.globals.scope.module)
    (hplace : d.places.get? (.value, occ) = none) :
    { d with
      places := d.places.put (.value, occ) loc
      globals := { d.globals with scope } }.Orderly m (loose ++ [(Namespace.value, occ)]) p
      expected where
  module := hscope.trans hd.module
  known := hd.known
  placed n e he := ⟨(hd.placed n e he).1, Table.contains_put.2 (.inr (hd.placed n e he).2)⟩
  families := hd.families
  loose := by
    refine List.forall_mem_append.2 ⟨fun k hk => ?_, List.forall_mem_singleton.2 ?_⟩
    · exact ⟨Table.contains_put.2 (.inr (hd.loose k hk).1), (hd.loose k hk).2⟩
    · refine ⟨Table.contains_put.2 (.inl rfl), fun e he => ?_⟩
      rw [hd.get?_of_place hplace] at he
      cases he

theorem restart (hd : d.Orderly m loose p []) (q : Name) : d.Orderly m loose q [] :=
  { hd with families := hd.families.expect q }

theorem mono (hd : d.Orderly m loose p expected) (h : ∀ k ∈ loose', k ∈ loose) :
    d.Orderly m loose' p expected :=
  { hd with loose := fun k hk => hd.loose k (h k hk) }

end Declaring.Orderly

theorem reportable_orderly : Reportable (·.Orderly m loose p expected) :=
  fun _ _ _ hd => hd.congr rfl rfl rfl rfl

/-- An action after which those are expected, too, that it has added as children of `p`. -/
def Opens (m : Surface.Module) (loose : List (Namespace × String)) (p : Name) {α : Type} (act : DeclareM α)
    (out : α → List Entity) : Prop :=
  ∀ d expected, d.Orderly m loose p expected →
    (act.run d).2.Orderly m loose p (expected ++ out (act.run d).1)

namespace Opens

variable {α β : Type} {act : DeclareM α} {out : α → List Entity} {outs : β → List Entity}

theorem skip {Q : α → Prop} {f : α → DeclareM β}
    (h : ∀ expected, Preserves (·.Orderly m loose p expected) act Q)
    (hf : ∀ a, Q a → Opens m loose p (f a) outs) : Opens m loose p (act >>= f) outs :=
  fun d expected hd => hf _ (h expected d hd).2 _ expected (h expected d hd).1

theorem reporting {c : Prop} [Decidable c] {problem : Problem} {loc : Span}
    (hproblem : problem.constraint? = none) (h : Opens m loose p act out) :
    Opens m loose p (if c then do Declare.report problem loc; act else act) out := by
  split
  · exact .skip (fun _ => Declare.preserves_report reportable_orderly hproblem _) fun _ _ => h
  · exact h

theorem congr {out' : α → List Entity} (h : Opens m loose p act out)
    (heq : ∀ a, out a = out' a) : Opens m loose p act out' := by
  rwa [← show out = out' from funext heq]

theorem map (h : Opens m loose p act out) {f : α → β} (hf : ∀ a, outs (f a) = out a) :
    Opens m loose p (do return f (← act)) outs := fun d expected hd => by
  have hd' := h d expected hd
  rw [← hf] at hd'
  exact hd'

theorem mapM {f : β → DeclareM α} {bs : List β} (h : ∀ b ∈ bs, Opens m loose p (f b) out) :
    Opens m loose p (bs.mapM f) fun as => as.flatMap out := by
  induction bs with
  | nil => exact fun d expected hd => (List.append_nil expected).symm ▸ hd
  | cons b bs ih =>
    obtain ⟨hb, hbs⟩ := List.forall_mem_cons.1 h
    rw [List.mapM_cons]
    intro d expected hd
    have hd' := ih hbs _ _ (hb d expected hd)
    rw [List.append_assoc] at hd'
    exact hd'

end Opens

namespace Declare

/-- A child is declared unless its name has been given before. -/
theorem opens_define {α : Type} {occ : String} {e : Name → Entity} {f : Option Name → DeclareM α}
    {out : α → List Entity} (hname : ∀ n, (e n).name = n) (hchildren : ∀ n, (e n).children = [])
    (hparent : ∀ n, (e n).parent? = some p) {a : Name → α} {b : α} (hnone : f none = pure b)
    (hb : out b = []) (hsome : ∀ n, f (some n) = (do addEntity (e n); return a n))
    (ha : ∀ n, out (a n) = [e n]) :
    Opens m loose p (define .value occ (e (topName m.name .value occ)).loc >>= f) out := by
  intro d expected hd
  rw [StateT.run_bind]
  cases hplace : d.places.get? (.value, occ) with
  | some previous =>
    rw [run_define_of_some hplace]
    show ((f none).run _).2.Orderly m loose p (expected ++ out ((f none).run _).1)
    rw [hnone]
    show Declaring.Orderly m loose p (expected ++ out b) _
    rw [hb, List.append_nil]
    exact reportable_orderly _ _ rfl hd
  | none =>
    rw [run_define_of_none hplace, hd.module]
    let n := topName m.name .value occ
    show ((f (some n)).run _).2.Orderly m loose p (expected ++ out ((f (some n)).run _).1)
    rw [hsome]
    show Declaring.Orderly m loose p (expected ++ out (a n)) _
    rw [ha]
    have hd' := hd.declare_child (e := e n) (hname n) hplace (hchildren n) (hparent n)
    rw [hname n] at hd'
    exact hd'

theorem opens_dataCon (decl : Surface.DataDecl) (c : Surface.ConDecl) :
    Opens m loose p (dataCon decl p c) fun r => r.toList.map .dataCon := by
  refine .skip (fun _ => preserves_typesOf reportable_orderly _ _) fun args _ => ?_
  let con (n : Name) : DataCon :=
    ⟨n, c.loc, p, ⟨decl.tyvars, [], Ty.fns args (.conApp p (decl.tyvars.map .var))⟩, args⟩
  exact opens_define (e := fun n => .dataCon (con n)) (a := fun n => some (con n)) (fun _ => rfl)
    (fun _ => rfl) (fun _ => rfl) rfl rfl (fun _ => rfl) fun _ => rfl

theorem opens_method (s : Scheme) (name : String × Span) :
    Opens m loose p (method p s name) fun r => r.toList.map .ident :=
  opens_define (e := fun n => .ident ⟨n, name.2, s, some p⟩)
    (a := fun n => some ⟨n, name.2, s, some p⟩) (fun _ => rfl) (fun _ => rfl) (fun _ => rfl) rfl rfl
    (fun _ => rfl) fun _ => rfl

theorem flatMap_toList {α : Type} (f : α → Entity) (rs : List (Option α)) :
    rs.flatMap (fun r => r.toList.map f) = (rs.filterMap id).map f := by
  induction rs with
  | nil => rfl
  | cons r rs ih => cases r <;> simp [ih]

theorem opens_methodSig (c : Surface.ClassDecl) (sig : Surface.TypeSig) :
    Opens m loose p (methodSig c p sig) fun is => is.map .ident := by
  have hmethods (s : Scheme) : Opens m loose p
      (do return (← sig.names.mapM (method p s)).filterMap id) fun is => is.map .ident :=
     (Opens.mapM fun name _ => opens_method s name).map fun rs => (flatMap_toList _ rs).symm
  refine .reporting rfl ?_
  refine .skip (fun _ => preserves_typeOf reportable_orderly none _) fun body _ => ?_
  exact .reporting rfl (hmethods _)

/-- A type lists the constructors that its declaration declares. -/
theorem orderly_dataCons (hd : d.Orderly m loose p []) {decl : Surface.DataDecl}
    (hk : (.type, decl.name) ∈ loose) (hout : ∀ k ∈ loose', k ∈ loose ∧ k ≠ (.type, decl.name)) :
    ((dataCons decl).run d).2.Orderly m loose' p [] := by
  have hskip : d.Orderly m loose' p [] := hd.mono fun k hk => (hout k hk).1
  unfold dataCons
  rw [StateT.run_bind, StateT.run_get, pure_bind]
  dsimp only
  split
  · next t ht =>
    split
    · rw [hd.module, hd.known _ rfl] at ht
      have hname : t.name = topName m.name .type decl.name := (hd.families.named _ _ ht).symm
      have hcons : Opens m loose t.name (decl.cons.mapM (dataCon decl t.name)) fun cs =>
          (cs.filterMap id).map .dataCon :=
        (Opens.mapM fun c _ => opens_dataCon decl c).congr (flatMap_toList _)
      have hd' := hcons d [] (hd.restart t.name)
      exact hd'.complete (e := .tyCon { t with dataCons := _ }) hname hk rfl hout
    · exact hskip
  · exact hskip

/-- A class lists the methods that its declaration declares. -/
theorem orderly_classMethods (hd : d.Orderly m loose p []) {c : Surface.ClassDecl}
    (hk : (.type, c.name) ∈ loose) (hout : ∀ k ∈ loose', k ∈ loose ∧ k ≠ (.type, c.name)) :
    ((classMethods c).run d).2.Orderly m loose' p [] := by
  have hskip : d.Orderly m loose' p [] := hd.mono fun k hk => (hout k hk).1
  unfold classMethods
  rw [StateT.run_bind, StateT.run_get, pure_bind]
  dsimp only
  split
  · next t ht =>
    split
    · rw [hd.module, hd.known _ rfl] at ht
      have hname : t.name = topName m.name .type c.name := (hd.families.named _ _ ht).symm
      have hsigs : Opens m loose t.name (c.sigs.mapM (methodSig c t.name)) fun mss =>
          mss.flatten.map .ident :=
        (Opens.mapM fun sig _ => opens_methodSig c sig).congr fun mss => by
          rw [List.map_flatten, List.flatMap_def]
      have hd' := hsigs d [] (hd.restart t.name)
      exact hd'.complete (e := .typeClass { t with methods := _ }) hname hk rfl hout
    · exact hskip
  · exact hskip

-- Names of types

/-- The name of the type or class that is declared. -/
def typeKey? : Surface.Decl → Option (Namespace × String)
  | .data d => some (.type, d.name)
  | .cls c => some (.type, c.name)
  | _ => none

/-- A single entity is declared, or its name has been given before. -/
theorem orderly_define (space : Namespace) (occ : String) {e : Name → Entity}
    (hd : d.Orderly m loose p []) (hname : ∀ n, (e n).name = n) (he : ∀ n, (e n).Single) :
    let act : DeclareM Unit := do
      if let some n ← define space occ (e (topName m.name space occ)).loc then addEntity (e n)
    let d' := (act.run d).2
    (d.places.get? (space, occ) = none ∧ d'.Orderly m (loose ++ [(space, occ)]) p []) ∨
      d'.Orderly m loose p [] ∧ ∃ r ∈ d'.reports, r.isError = true := by
  intro act d'
  cases hplace : d.places.get? (space, occ) with
  | some previous =>
    let report : Report := ⟨.declaredTwice occ previous, (e (topName m.name space occ)).loc⟩
    have hd' : d' = { d with reports := report :: d.reports } := by
      simp only [d', act, StateT.run_bind, run_define_of_some hplace]
      rfl
    rw [hd']
    exact .inr ⟨reportable_orderly _ _ rfl hd, report, List.mem_cons_self .., rfl⟩
  | none =>
    have hd' := hd.declare_single (e := e (topName m.name space occ)) (hname _) hplace (he _)
    rw [hname] at hd'
    refine .inl ⟨rfl, ?_⟩
    simp only [d', act, StateT.run_bind, run_define_of_none hplace, hd.module]
    exact hd'

theorem orderly_typeName (hd : d.Orderly m loose p []) {decl : Surface.Decl}
    {k : Namespace × String} (hk : typeKey? decl = some k) :
    let d' := ((typeName decl).run d).2
    (d.places.get? k = none ∧ d'.Orderly m (loose ++ [k]) p []) ∨
      d'.Orderly m loose p [] ∧ ∃ r ∈ d'.reports, r.isError = true := by
  cases decl with
  | data decl =>
    cases hk
    exact orderly_define _ _ (e := fun n => .tyCon ⟨n, decl.nameLoc, decl.tyvars, []⟩) hd
      (fun _ => rfl) fun _ => ⟨rfl, rfl⟩
  | cls c =>
    cases hk
    exact orderly_define _ _ (e := fun n => .typeClass ⟨n, c.nameLoc, c.tyvar, []⟩) hd
      (fun _ => rfl) fun _ => ⟨rfl, rfl⟩
  | _ => cases hk

/-- Without errors, types and classes have different names, and nothing belongs to them so far. -/
theorem orderly_typeNames {bare : Name → Prop} {start : Declaring} {decls : List Surface.Decl}
    (hd : d.Orderly m loose p []) (ht : d.Tidy m bare start)
    (hok : ∀ r ∈ ((decls.forM typeName).run d).2.reports, r.isError = false) :
    ((decls.forM typeName).run d).2.Orderly m (loose ++ decls.filterMap typeKey?) p [] ∧
      (decls.filterMap typeKey?).Nodup ∧
      ∀ k ∈ decls.filterMap typeKey?, d.places.get? k = none := by
  induction decls generalizing d loose start with
  | nil => exact ⟨(List.append_nil loose).symm ▸ hd, .nil, fun k hk => by cases hk⟩
  | cons decl decls ih =>
    let d₁ := ((typeName decl).run d).2
    have ht₁ : d₁.Tidy m bare d := (preserves_typeName decl d ht.restart).1
    have ht' : ((decls.forM typeName).run d₁).2.Tidy m bare d₁ :=
      (Preserves.forM (fun decl _ => preserves_typeName decl) d₁ ht₁.restart).1
    cases hk : typeKey? decl with
    | none =>
      have hd₁ : d₁ = d := by cases decl <;> first | rfl | cases hk
      rw [List.filterMap_cons_none hk]
      show ((decls.forM typeName).run d₁).2.Orderly m _ p [] ∧ _
      rw [hd₁]
      exact ih hd ht (hd₁ ▸ hok)
    | some k =>
      rw [List.filterMap_cons_some hk]
      rcases orderly_typeName hd hk with ⟨hnew, hd₁⟩ | ⟨-, r, hr, herror⟩
      · obtain ⟨hd', hnodup, hfree⟩ := ih hd₁ ht₁ hok
        have hplace : d₁.places.contains k = true :=
          (hd₁.loose k (List.mem_append_right _ (List.mem_singleton_self k))).1
        have hout : k ∉ decls.filterMap typeKey? := fun hmem => by
          rw [Table.contains, hfree k hmem] at hplace
          cases hplace
        rw [List.append_cons]
        refine ⟨hd', List.nodup_cons.2 ⟨hout, hnodup⟩, List.forall_mem_cons.2 ⟨hnew, ?_⟩⟩
        intro k' hk'
        cases hold : d.places.get? k' with
        | none => rfl
        | some l => cases (ht₁.places k' l hold).symm.trans (hfree k' hk')
      · rw [hok r (ht'.reports hr)] at herror
        cases herror

-- Names of values

/-- The names that a binding gives to values. -/
def valueKeys : Surface.Decl → List (Namespace × String)
  | .bind b => b.binders.map fun y => (.value, y.1)
  | _ => []

theorem orderly_primitive (prim : Surface.PrimDecl) :
    Preserves (·.Orderly m loose p []) (primitive prim) fun _ => True := by
  refine .bind (preserves_schemeOf reportable_orderly _) fun s _ => .forM fun name _ d hd => ?_
  refine ⟨?_, trivial⟩
  rcases orderly_define .value name.1 (e := fun n => .ident ⟨n, name.2, s, none⟩) hd
    (fun _ => rfl) fun _ => ⟨rfl, rfl⟩ with ⟨-, hd'⟩ | ⟨hd', -⟩
  · exact hd'.mono fun k hk => List.mem_append_left _ hk
  · exact hd'

/-- Without errors, what a binding defines denotes nothing so far. -/
theorem orderly_binders {bare : Name → Prop} {start : Declaring} {ys : List (String × Span)}
    (hbare : ∀ y ∈ ys, bare (topName m.name .value y.1)) (hd : d.Orderly m loose p [])
    (ht : d.Tidy m bare start)
    (hok : ∀ r ∈ ((ys.forM fun y => do let _ ← define .value y.1 y.2).run d).2.reports,
      r.isError = false) :
    ((ys.forM fun y => do let _ ← define .value y.1 y.2).run d).2.Orderly m
      (loose ++ ys.map fun y : String × Span => (Namespace.value, y.1)) p [] := by
  induction ys generalizing d loose start with
  | nil => exact (List.append_nil loose).symm ▸ hd
  | cons y ys ih =>
    obtain ⟨hy, hys⟩ := List.forall_mem_cons.1 hbare
    let d₁ := ((define .value y.1 y.2).run d).2
    have ht₁ : d₁.Tidy m bare d := (preserves_binder hy d ht.restart).1
    have ht' : ((ys.forM fun y => do let _ ← define .value y.1 y.2).run d₁).2.Tidy m bare d₁ :=
      (Preserves.forM (fun y hy => preserves_binder (hys y hy)) d₁ ht₁.restart).1
    cases hplace : d.places.get? (.value, y.1) with
    | some previous =>
      have hrun : (define .value y.1 y.2).run d = (none, _) := run_define_of_some hplace
      have hd₁ : d₁ = _ := congrArg Prod.snd hrun
      have herror := hok ⟨.declaredTwice y.1 previous, y.2⟩
        (ht'.reports (hd₁ ▸ List.mem_cons_self ..))
      cases herror
    | none =>
      have hrun : (define .value y.1 y.2).run d = (some _, _) := run_define_of_none hplace
      have hd₁ : d₁ = _ := congrArg Prod.snd hrun
      have hbound : d₁.Orderly m (loose ++ [(.value, y.1)]) p [] := by
        rw [hd₁]
        exact hd.bind y.2 rfl hplace
      rw [List.map_cons, List.append_cons]
      exact ih hys hbound ht₁ hok

theorem orderly_valueNames {bare : Name → Prop} {start : Declaring} {decl : Surface.Decl}
    (hbare : ∀ b, decl = .bind b → ∀ y ∈ b.binders, bare (topName m.name .value y.1))
    (hd : d.Orderly m loose p []) (ht : d.Tidy m bare start)
    (hk : ∀ k ∈ typeKey? decl, k ∈ loose)
    (hout : ∀ k ∈ loose', k ∈ loose ∧ typeKey? decl ≠ some k)
    (hok : ∀ r ∈ ((valueNames decl).run d).2.reports, r.isError = false) :
    ((valueNames decl).run d).2.Orderly m (loose' ++ valueKeys decl) p [] := by
  have hrest : d.Orderly m loose' p [] := hd.mono fun k hk => (hout k hk).1
  cases decl with
  | data decl =>
    rw [show valueKeys (.data decl) = [] from rfl, List.append_nil]
    exact orderly_dataCons hd (hk _ rfl) fun k hk =>
      ⟨(hout k hk).1, fun h => (hout k hk).2 (congrArg some h.symm)⟩
  | cls c =>
    rw [show valueKeys (.cls c) = [] from rfl, List.append_nil]
    exact orderly_classMethods hd (hk _ rfl) fun k hk =>
      ⟨(hout k hk).1, fun h => (hout k hk).2 (congrArg some h.symm)⟩
  | prim pr =>
    rw [show valueKeys (.prim pr) = [] from rfl, List.append_nil]
    exact (orderly_primitive pr d hrest).1
  | bind b => exact orderly_binders (hbare b rfl) hrest ht hok
  | sig | fixity | inst => exact (List.append_nil loose').symm ▸ hrest

/-- Without errors, types and classes have got their children, and nothing belongs to what bindings
define. -/
theorem orderly_forM_valueNames {start : Declaring} {decls : List Surface.Decl}
    (hm : decls ⊆ m.decls) (hd : d.Orderly m (decls.filterMap typeKey? ++ loose) p [])
    (hnodup : (decls.filterMap typeKey?).Nodup) (hloose : ∀ k ∈ loose, k.1 = .value)
    (ht : d.Tidy m (Defines m) start)
    (hok : ∀ r ∈ ((decls.forM valueNames).run d).2.reports, r.isError = false) :
    ((decls.forM valueNames).run d).2.Orderly m (loose ++ decls.flatMap valueKeys) p [] := by
  induction decls generalizing d loose start with
  | nil => exact (List.append_nil loose).symm ▸ hd
  | cons decl decls ih =>
    obtain ⟨hdecl, hdecls⟩ := List.cons_subset.1 hm
    let d₁ := ((valueNames decl).run d).2
    have ht₁ : d₁.Tidy m (Defines m) d := (preserves_valueNames hdecl d ht.restart).1
    have ht' : ((decls.forM valueNames).run d₁).2.Tidy m (Defines m) d₁ :=
      (Preserves.forM (fun decl h => preserves_valueNames (hdecls h)) d₁ ht₁.restart).1
    have hbinders (b : Surface.Binding) (hb : decl = .bind b) :
        ∀ y ∈ b.binders, Defines m (topName m.name .value y.1) :=
      fun y hy => ⟨b, mem_bindings.2 (hb ▸ hdecl), y, hy, rfl⟩
    have hspace (k : Namespace × String) (hk : typeKey? decl = some k) : k.1 = .type := by
      cases decl <;> cases hk <;> rfl
    have hkeys : (decl :: decls).filterMap typeKey? =
        (typeKey? decl).toList ++ decls.filterMap typeKey? := by
      cases hk : typeKey? decl <;> simp [hk]
    rw [hkeys] at hd hnodup
    have hout : ∀ k ∈ decls.filterMap typeKey? ++ loose,
        k ∈ (typeKey? decl).toList ++ decls.filterMap typeKey? ++ loose ∧
          typeKey? decl ≠ some k := by
      intro k hk
      refine ⟨by simp_all, fun hkey => ?_⟩
      rcases List.mem_append.1 hk with hk | hk
      · rw [hkey] at hnodup
        exact (List.nodup_cons.1 hnodup).1 hk
      · have hkind := hspace k hkey
        rw [hloose k hk] at hkind
        cases hkind
    have hd₁ := orderly_valueNames hbinders hd ht (fun k hk => by simp [Option.mem_def.1 hk]) hout
      fun r hr => hok r (ht'.reports hr)
    rw [List.append_assoc] at hd₁
    have hvalues : ∀ k ∈ loose ++ valueKeys decl, k.1 = .value := by
      refine List.forall_mem_append.2 ⟨hloose, fun k hk => ?_⟩
      cases decl with
      | bind b =>
        obtain ⟨y, -, rfl⟩ := List.mem_map.1 hk
        rfl
      | _ => cases hk
    have hd' := ih hdecls hd₁ (List.nodup_append.1 hnodup).2.1 hvalues ht₁ hok
    rw [List.append_assoc] at hd'
    exact hd'

-- Signatures, instances and fixities

/-- Names of bindings are loose. -/
def Covers (m : Surface.Module) (loose : List (Namespace × String)) : Prop :=
  ∀ b ∈ m.bindings, ∀ y ∈ b.binders, (Namespace.value, y.1) ∈ loose

theorem covers_valueKeys : Covers m (m.decls.flatMap valueKeys) := fun b hb y hy =>
  List.mem_flatMap.2 ⟨.bind b, mem_bindings.1 hb, List.mem_map.2 ⟨y, hy, rfl⟩⟩

theorem mem_of_signatureProblem? (hm : Covers m loose) {signed : List String} {occ : String}
    (h : signatureProblem? m signed occ = none) : (Namespace.value, occ) ∈ loose := by
  unfold signatureProblem? at h
  split at h
  · cases h
  split at h
  · cases h
  split at h
  · next hany =>
    obtain ⟨b, hb, hname⟩ := List.any_eq_true.1 hany
    cases b with
    | fn b =>
      have hmem := hm _ hb (b.name, b.nameLoc) (List.mem_singleton_self _)
      rwa [show b.name = occ from by simpa using hname] at hmem
    | pat b => cases hname
  · cases h

theorem orderly_signature (hm : Covers m loose) (decl : Surface.Decl) :
    Preserves (·.Orderly m loose p []) (signature m decl) fun _ => True := by
  cases decl with
  | sig s =>
    refine .bind (preserves_schemeOf reportable_orderly _) fun scheme _ => .forM fun name _ d hd => ?_
    simp only [StateT.run_bind, StateT.run_get, pure_bind]
    split
    · exact ⟨reportable_orderly _ _ (constraint?_of_signatureProblem? ‹_›) hd, trivial⟩
    · next hnone =>
      have hd' := hd.identify (i := ⟨_, (d.places.get? (.value, name.1)).getD name.2, scheme, none⟩)
        (mem_of_signatureProblem? hm hnone) (congrArg (topName · .value name.1) hd.module) rfl
      exact ⟨hd'.congr rfl rfl rfl rfl, trivial⟩
  | _ => exact .pure trivial

theorem orderly_instancesAndFixities (decls : List Surface.Decl) :
    Preserves (·.Orderly m loose p expected) (instancesAndFixities decls) fun _ => True :=
  (preserves_instancesAndFixities_of
    (preserves_inst_of reportable_orderly fun _ _ hd _ _ _ => hd.congr rfl rfl rfl rfl)
    (preserves_fixity_of reportable_orderly fun _ _ _ hd _ _ => hd.congr rfl rfl rfl rfl)
    decls).weaken fun _ _ => trivial

-- The list type

theorem families_listEntities (p : Name) :
    Families (listEntities.foldl (fun t e => t.put e.name e) []) p [] := by
  let t : Table Name Entity := listEntities.foldl (fun t e => t.put e.name e) []
  have hnamed : ∀ q ∈ t, q.1 = q.2.name := by decide
  have hlisted : ∀ q ∈ t, ∀ c ∈ q.2.children, t.get? c.name = some c ∧ c.parent? = some q.1 := by
    decide
  have hparents : ∀ q ∈ t, q.2.parent?.all fun r =>
      (t.get? r).any fun f => f.children.count q.2 == 1 := by decide
  refine ⟨fun n e he => hnamed _ (Table.mem_of_get? he), fun n e he =>
    hlisted _ (Table.mem_of_get? he), fun n e q he hq => .inl ?_, fun c hc => by cases hc⟩
  have hany := hparents _ (Table.mem_of_get? he)
  rw [show (n, e).2.parent? = some q from hq, Option.all_some] at hany
  obtain ⟨f, hf, hcount⟩ := (Option.any_eq_true _ _).1 hany
  exact ⟨f, hf, by simpa using hcount⟩

theorem orderly_listEntities (hm : m.name = preludeModule) (hd : d.Orderly m [] p [])
    (hempty : d.exports.entities = []) :
    ((listEntities.forM wireIn).run d).2.Orderly m [] p [] := by
  let I (d : Declaring) : Prop := d.globals.module = m.name ∧
    (∀ n, n.module = m.name → d.globals.entity? n = d.exports.entities.get? n) ∧
    ∀ n e, d.exports.entities.get? n = some e →
      n.module = m.name ∧ d.places.contains (n.space, n.occ) = true
  have hown : ∀ e ∈ listEntities, e.name.module = preludeModule := by decide
  have hwire : Preserves I (listEntities.forM wireIn) fun _ => True := by
    refine .forM fun e he d hd => ⟨⟨hd.1, fun n hn => ?_, fun n f hf => ?_⟩, trivial⟩
    · show (d.globals.entities.put e.name e).get? n = (d.exports.entities.put e.name e).get? n
      rw [Table.get?_put, Table.get?_put, ← hd.2.1 n hn]
      rfl
    · rcases Table.eq_or_of_get?_put hf with ⟨rfl, rfl⟩ | ⟨-, hf⟩
      · exact ⟨(hown e he).trans hm.symm, Table.contains_put.2 (.inl rfl)⟩
      · exact ⟨(hd.2.2 n f hf).1, Table.contains_put.2 (.inr (hd.2.2 n f hf).2)⟩
  obtain ⟨hmodule, hknown, hplaced⟩ := (hwire d ⟨hd.module, hd.known, hd.placed⟩).1
  refine ⟨hmodule, hknown, hplaced, ?_, fun k hk => by cases hk⟩
  have htable : ((listEntities.forM wireIn).run d).2.exports.entities =
      listEntities.foldl (fun t e => t.put e.name e) d.exports.entities := rfl
  rw [htable, hempty]
  exact families_listEntities p

end Declare

end Check

end TypeLens
