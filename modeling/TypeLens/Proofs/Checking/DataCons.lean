import TypeLens.Proofs.Checking.Coherence
import TypeLens.Proofs.Surface.Spellings

/-!
What holds of the constructors that modules declare holds of all that are known. Their types are
functions of what they take, and in modules that are read from texts their names are not those of
variables, so that no binding takes the place of a constructor.
-/

namespace TypeLens

/-- An entity that is a constructor has the property. -/
def Entity.IfDataCon (P : DataCon → Prop) : Entity → Prop
  | .dataCon c => P c
  | _ => True

/-- The type of the constructor is a function of what it takes. -/
def DataCon.Fielded (c : DataCon) : Prop := ∃ r, c.scheme.body = .fns c.argTypes r

/-- The constructor begins with a capital letter, or it is one of lists. -/
def DataCon.Cased (c : DataCon) : Prop :=
  Lex.isConid c.name.occ = true ∨ ∃ e ∈ Check.Declare.listEntities, e.name = c.name

namespace Check

/-- All constructors that are known or made known have the property. -/
structure Declaring.DataCons (P : DataCon → Prop) (d : Declaring) : Prop where
  known : ∀ p ∈ d.globals.entities, p.2.IfDataCon P
  exported : ∀ p ∈ d.exports.entities, p.2.IfDataCon P

/-- The constructors that a declaration of the module makes have the property, and those of lists.
Nothing is asked of the types of what they take. -/
structure Makes (P : DataCon → Prop) (m : Surface.Module) : Prop where
  list : ∀ e ∈ Declare.listEntities, e.IfDataCon P
  data : ∀ d, .data d ∈ m.decls → ∀ c ∈ d.cons, ∀ (n parent : Name) (args : List Ty),
    n.occ = c.name → P ⟨n, c.loc, parent,
      ⟨d.tyvars, [], .fns args (.conApp parent (d.tyvars.map .var))⟩, args⟩

variable {P : DataCon → Prop} {m : Surface.Module} {imports : List Exports}

namespace Declare

theorem reportable_dataCons : Reportable (·.DataCons P) := fun _ _ _ h => ⟨h.known, h.exported⟩

theorem dataCons_addEntity {e : Entity} (he : e.IfDataCon P) :
    Preserves (·.DataCons P) (addEntity e) fun _ => True :=
  .modify fun _ hd => ⟨Table.forall_mem_put hd.known he, Table.forall_mem_put hd.exported he⟩

/-- A name is declared, and then something is done that depends on it. -/
theorem dataCons_define {α : Type} {space : Namespace} {occ : String} {loc : Span}
    {f : Option Name → DeclareM α} {Q : α → Prop}
    (hnone : Preserves (·.DataCons P) (f none) Q)
    (hsome : ∀ n, n.occ = occ → Preserves (·.DataCons P) (f (some n)) Q) :
    Preserves (·.DataCons P) (define space occ loc >>= f) Q := by
  have hdefine : Preserves (·.DataCons P) (define space occ loc) fun r => ∀ n ∈ r, n.occ = occ := by
    refine .bind .get fun s hs => ?_
    split
    · exact .bind (preserves_report reportable_dataCons rfl _) fun _ _ => .pure nofun
    · refine .bind (.set ⟨hs.known, hs.exported⟩) fun _ _ => .pure fun n hn => ?_
      obtain rfl := Option.some.inj hn
      rfl
  refine .bind hdefine fun r hr => ?_
  cases r with
  | none => exact hnone
  | some n => exact hsome n (hr n rfl)

theorem dataCons_typeName (decl : Surface.Decl) :
    Preserves (·.DataCons P) (typeName decl) fun _ => True := by
  cases decl with
  | data | cls => exact dataCons_define (.pure trivial) fun _ _ => dataCons_addEntity trivial
  | _ => exact .pure trivial

theorem dataCons_dataCons (hm : Makes P m) {decl : Surface.DataDecl} (hdecl : .data decl ∈ m.decls) :
    Preserves (·.DataCons P) (dataCons decl) fun _ => True := by
  have hcon (parent : Name) {c : Surface.ConDecl} (hc : c ∈ decl.cons) :
      Preserves (·.DataCons P) (dataCon decl parent c) fun _ => True := by
    refine .bind (preserves_typesOf reportable_dataCons _ _) fun args _ => ?_
    refine dataCons_define (.pure trivial) fun n hn => ?_
    exact .bind (dataCons_addEntity (hm.data decl hdecl c hc n parent args hn)) fun _ _ =>
      .pure trivial
  unfold dataCons
  refine .bind .get fun s _ => ?_
  dsimp only
  split
  · split
    · exact .bind (.mapM fun c hc => hcon _ hc) fun _ _ => dataCons_addEntity trivial
    · exact .pure trivial
  · exact .pure trivial

theorem dataCons_methodSig (c : Surface.ClassDecl) (cls : Name) (sig : Surface.TypeSig) :
    Preserves (·.DataCons P) (methodSig c cls sig) fun _ => True := by
  refine preserves_reporting reportable_dataCons rfl ?_
  refine .bind (preserves_typeOf reportable_dataCons none sig.ty.body) fun body _ => ?_
  refine preserves_reporting reportable_dataCons rfl ?_
  refine .bind (.mapM (Q := fun _ => True) fun name _ => ?_) fun _ _ => .pure trivial
  refine dataCons_define (.pure trivial) fun n _ => ?_
  exact .bind (dataCons_addEntity trivial) fun _ _ => .pure trivial

theorem dataCons_classMethods (c : Surface.ClassDecl) :
    Preserves (·.DataCons P) (classMethods c) fun _ => True := by
  unfold classMethods
  refine .bind .get fun s _ => ?_
  dsimp only
  split
  · split
    · exact .bind (.mapM fun sig _ => dataCons_methodSig c _ sig) fun _ _ =>
        dataCons_addEntity trivial
    · exact .pure trivial
  · exact .pure trivial

theorem dataCons_primitive (p : Surface.PrimDecl) :
    Preserves (·.DataCons P) (primitive p) fun _ => True := by
  refine .bind (preserves_schemeOf reportable_dataCons _) fun s _ => .forM fun name _ => ?_
  exact dataCons_define (.pure trivial) fun _ _ => dataCons_addEntity trivial

theorem dataCons_valueNames (hm : Makes P m) {decl : Surface.Decl} (hdecl : decl ∈ m.decls) :
    Preserves (·.DataCons P) (valueNames decl) fun _ => True := by
  cases decl with
  | data d => exact dataCons_dataCons hm hdecl
  | cls c => exact dataCons_classMethods c
  | prim p => exact dataCons_primitive p
  | bind b =>
    exact .forM fun name _ => dataCons_define (.pure trivial) fun _ _ => .pure trivial
  | sig | fixity | inst => exact .pure trivial

theorem dataCons_signature (decl : Surface.Decl) :
    Preserves (·.DataCons P) (signature m decl) fun _ => True := by
  cases decl with
  | sig d =>
    refine .bind (preserves_schemeOf reportable_dataCons _) fun scheme _ => .forM fun name _ => ?_
    refine .bind .get fun s hs => ?_
    split
    · next hp =>
      exact preserves_report reportable_dataCons (constraint?_of_signatureProblem? hp) _
    · exact .bind (.set ⟨hs.known, hs.exported⟩) fun _ _ => dataCons_addEntity trivial
  | _ => exact .pure trivial

theorem dataCons_names (hm : Makes P m) : Preserves (·.DataCons P) (names m) fun _ => True := by
  have hwireIn : ∀ e ∈ listEntities, Preserves (·.DataCons P) (wireIn e) fun _ => True :=
    fun e he => .bind (.modify fun _ hd => ⟨hd.known, hd.exported⟩) fun _ _ =>
      dataCons_addEntity (hm.list e he)
  have hrest : Preserves (·.DataCons P) (do
      m.decls.forM typeName
      m.decls.forM valueNames
      m.decls.forM (signature m)) fun _ => True :=
    .bind (.forM fun decl _ => dataCons_typeName decl) fun _ _ =>
      .bind (.forM fun decl hdecl => dataCons_valueNames hm hdecl) fun _ _ =>
        .forM fun decl _ => dataCons_signature decl
  unfold names
  split
  · exact .bind (.forM hwireIn) fun _ _ => hrest
  · exact hrest

theorem dataCons_all (hm : Makes P m) : Preserves (·.DataCons P) (all m) fun _ => True := by
  have hlate := preserves_instancesAndFixities_of (I := (·.DataCons P))
    (preserves_inst_of reportable_dataCons fun _ _ hd _ _ _ => ⟨hd.known, hd.exported⟩)
    (preserves_fixity_of reportable_dataCons fun _ _ _ hd _ _ => ⟨hd.known, hd.exported⟩) m.decls
  rw [all_eq]
  exact .bind (dataCons_names hm) fun _ _ => hlate.weaken fun _ _ => trivial

end Declare

theorem dataCons_addIdents {d : Declaring} (hd : d.DataCons P) (ids : Bound) :
    (addIdents d ids).DataCons P := by
  unfold addIdents
  induction ids generalizing d with
  | nil => exact hd
  | cons i ids ih =>
    exact ih ⟨Table.forall_mem_put hd.known trivial, Table.forall_mem_put hd.exported trivial⟩

section

variable (hi : ∀ x ∈ imports, ∀ p ∈ x.entities, p.2.IfDataCon P)
include hi

theorem dataCons_initial : (Declaring.initial m imports).DataCons P := by
  refine ⟨?_, List.forall_mem_nil _⟩
  refine initial_of_imported (J := fun g => ∀ p ∈ g.entities, p.2.IfDataCon P)
    (fun x hx e he g hg => ?_) (fun _ _ _ _ _ hg => hg) (fun _ _ hg => hg) (List.forall_mem_nil _)
  obtain ⟨p, hp, rfl⟩ := List.mem_map.1 he
  exact Table.forall_mem_put hg (hi x hx p hp)

theorem dataCons_declared (hm : Makes P m) : (declared m imports).2.DataCons P :=
  (Declare.dataCons_all hm _ (dataCons_initial hi)).1

theorem dataCons_elaborate (hm : Makes P m) : (elaborate m imports).declared.DataCons P := by
  have hbinds : Returns (binds (declared m imports).2 (declared m imports).1 m) (·.2.DataCons P) :=
    .bind (returns_topGroups (I := (·.DataCons P)) (fun _ ids hd => dataCons_addIdents hd ids)
      (dataCons_declared hi hm) _) fun _ hr => .skip fun _ => .pure hr
  exact hbinds _

end

-- Types

theorem makes_fielded (m : Surface.Module) : Makes DataCon.Fielded m where
  list := by
    simp only [Declare.listEntities, List.forall_mem_cons]
    exact ⟨trivial, ⟨.list (.var "a"), rfl⟩, ⟨.list (.var "a"), rfl⟩, List.forall_mem_nil _⟩
  data d _ _ _ _ parent _ _ := ⟨.conApp parent (d.tyvars.map .var), rfl⟩

/-- A module that was accepted makes known only constructors with types of constructors. -/
theorem Compiled.fielded {x : Exports} (h : Compiled x) :
    ∀ p ∈ x.entities, p.2.IfDataCon DataCon.Fielded := by
  induction h with
  | intro _ hm ih =>
    rw [eq_of_module_eq_ok hm]
    exact (dataCons_elaborate ih (makes_fielded _)).exported

-- Names

/-- What is exported of a module that was read from a text and accepted, and so was all that it
imports. -/
inductive Read : Exports → Prop
  | intro {w : Int} {file : Option String} {source : String} {m : Surface.Module}
      {imports : List Exports} {checked : Checked} (hi : ∀ x ∈ imports, Read x)
      (hread : Surface.parseModule w file source = .ok m) (hm : module m imports = .ok checked) :
      Read checked.exports

theorem Read.compiled {x : Exports} (h : Read x) : Compiled x := by
  induction h with
  | intro _ _ hm ih => exact .intro ih hm

variable {w : Int} {file : Option String} {source : String}

theorem makes_cased (hread : Surface.parseModule w file source = .ok m) : Makes DataCon.Cased m where
  list := by
    intro e he
    cases e with
    | dataCon c => exact .inr ⟨_, he, rfl⟩
    | _ => trivial
  data d hd c hc n _ _ hn := by
    obtain ⟨-, hcons⟩ := Surface.spelled_of_parseModule hread _ hd
    exact .inl (hn ▸ hcons c hc)

theorem Read.cased {x : Exports} (h : Read x) :
    ∀ p ∈ x.entities, p.2.IfDataCon DataCon.Cased := by
  induction h with
  | intro _ hread hm ih =>
    rw [eq_of_module_eq_ok hm]
    exact (dataCons_elaborate ih (makes_cased hread)).exported

/-- In a module that was read and accepted, no binding has the name of a constructor that is
imported. -/
theorem keepsConstructors_of_read (hi : ∀ x ∈ imports, Read x)
    (hread : Surface.parseModule w file source = .ok m) {checked : Checked}
    (hm : module m imports = .ok checked) : KeepsConstructors m imports := by
  rintro b hb y hy ⟨c, hc⟩
  have hwf : ∀ x ∈ imports, x.WellFormed True := fun x hx => (hi x hx).compiled.wellFormed
  have hname : topName m.name .value y.1 = c.name := keyed_initial.of_entity? hc
  have hcased : c.Cased :=
    (dataCons_initial fun x hx => (hi x hx).cased).known _ (Table.mem_of_get? hc)
  rcases hcased with hconid | ⟨e, he, hlist⟩
  · have hvariable : Surface.IsVariable Lex.IsName y.1 :=
      Surface.spelled_of_parseModule hread _ (Declare.mem_bindings.1 hb) y hy
    rw [← hname] at hconid
    exact absurd hconid (Bool.eq_false_iff.1 (Surface.isConid_of_isVariable hvariable))
  · obtain ⟨hno, -⟩ := of_module_eq_ok hm
    have hapart := constructs_declared hwf fun r hr => hno r (reports_declared_subset hr)
    exact (hapart b hb y hy).2 e he (hlist.trans hname.symm)

end Check

end TypeLens
