import Mathlib.Data.List.Pairwise
import TypeLens.Proofs.Checking.Changes
import TypeLens.Surface.Parse

/-!
Instances for one class and one type constructor. A module's own instances clash with no others: what
would clash is reported. Instances that are imported are gathered without a look at each other, so
that those of two modules may clash, and then it depends on the order of the imports which of them is
found.
-/

namespace TypeLens

namespace Instance

/-- What an instance is found by. -/
def key (i : Instance) : Name × Name := (i.cls, i.head)

/-- Two instances that are not the same are found by the same class and type constructor. -/
def Clash (i j : Instance) : Prop := i.key = j.key ∧ ¬ i.same j

instance (i j : Instance) : Decidable (i.Clash j) := inferInstanceAs (Decidable (_ ∧ _))

variable {i j k : Instance}

theorem same_iff : i.same j ↔ { i with loc := j.loc } = j := beq_iff_eq

theorem same_refl (i : Instance) : i.same i := same_iff.2 rfl

theorem same_symm (h : i.same j) : j.same i := by
  rw [same_iff] at h ⊢
  rw [← h]

theorem same_trans (h : i.same j) (h' : j.same k) : i.same k := by
  rw [same_iff] at h h' ⊢
  rw [← h', ← h]

theorem key_of_same (h : i.same j) : i.key = j.key := by
  rw [← same_iff.1 h]
  rfl

theorem eq_of_key {is : List Instance} (h : is.Pairwise fun i j => i.key ≠ j.key) (hi : i ∈ is)
    (hj : j ∈ is) (hkey : i.key = j.key) : i = j := by
  have hsymm : Std.Symm fun i j : Instance => i.key ≠ j.key := ⟨fun _ _ h => h.symm⟩
  by_contra hij
  exact h.forall hi hj hij hkey

theorem Clash.of_same {i' j' : Instance} (h : i.Clash j) (hi : i'.same i) (hj : j'.same j) :
    i'.Clash j' := by
  refine ⟨(key_of_same hi).trans (h.1.trans (key_of_same hj).symm), fun hsame => h.2 ?_⟩
  exact same_trans (same_symm hi) (same_trans hsame hj)

end Instance

/-- No two instances clash. -/
def Coherent (is : List Instance) : Prop := ∀ i ∈ is, ∀ j ∈ is, ¬ i.Clash j

instance (is : List Instance) : Decidable (Coherent is) :=
  inferInstanceAs (Decidable (∀ i ∈ is, ∀ j ∈ is, ¬ i.Clash j))

/-- The first instance that is found by a class and a type constructor. -/
def firstInstance? (is : List Instance) (cls head : Name) : Option Instance :=
  is.find? fun i => i.key = (cls, head)

theorem firstInstance?_append (is js : List Instance) (cls head : Name) :
    firstInstance? (is ++ js) cls head =
      (firstInstance? is cls head).or (firstInstance? js cls head) := List.find?_append

namespace InstanceEnv

theorem find?_add (env : InstanceEnv) (i : Instance) (cls head : Name) :
    (env.add i).1.find? cls head =
      (env.find? cls head).or (if i.key = (cls, head) then some i else none) := by
  by_cases hkey : i.key = (cls, head)
  · rw [if_pos hkey]
    obtain ⟨rfl, rfl⟩ := Prod.mk.inj (show (i.cls, i.head) = (cls, head) from hkey)
    unfold add
    cases hheld : env.find? i.cls i.head with
    | some held => exact hheld
    | none => exact Table.get?_put_self ..
  · rw [if_neg hkey, Option.or_none]
    unfold add
    split
    · rfl
    · exact Table.get?_put_of_ne hkey _ _

/-- Of the instances for one class and type constructor the first is found. -/
theorem find?_ofList (is : List Instance) (cls head : Name) :
    (ofList is).find? cls head = firstInstance? is cls head := by
  have hfold (env : InstanceEnv) : (is.foldl (fun env i => (env.add i).1) env).find? cls head =
      (env.find? cls head).or (firstInstance? is cls head) := by
    induction is generalizing env with
    | nil => exact Option.or_none.symm
    | cons i is ih =>
      rw [List.foldl_cons, ih, find?_add, Option.or_assoc, firstInstance?, firstInstance?,
        List.find?_cons]
      by_cases hkey : i.key = (cls, head)
      · simp [hkey]
      · simp [hkey]
  exact hfold []

end InstanceEnv

-- Instances that are imported

namespace Globals

/-- The instances are those that were imported, each once. -/
structure Gathers (is : List Instance) (g : Globals) : Prop where
  subset : g.instances ⊆ is
  covers : ∀ i ∈ is, ∃ j ∈ g.instances, j.same i
  first : ∀ cls head, firstInstance? g.instances cls head = firstInstance? is cls head

variable {is : List Instance} {g : Globals}

theorem Gathers.importInstance (h : g.Gathers is) (i : Instance) :
    (g.importInstance i).Gathers (is ++ [i]) := by
  unfold Globals.importInstance
  split
  · next hany =>
    obtain ⟨j, hj, hsame⟩ := List.any_eq_true.1 hany
    refine ⟨fun k hk => List.mem_append_left _ (h.subset hk),
      List.forall_mem_append.2 ⟨h.covers, List.forall_mem_singleton.2 ⟨j, hj, hsame⟩⟩,
      fun cls head => ?_⟩
    rw [firstInstance?_append, ← h.first]
    cases hfirst : firstInstance? g.instances cls head with
    | some k => rfl
    | none =>
      -- The instance that is left out is found by the same as one that is there.
      have hkey := List.find?_eq_none.1 hfirst j hj
      rw [Instance.key_of_same hsame] at hkey
      rw [firstInstance?, List.find?_singleton, if_neg hkey]
      rfl
  · refine ⟨List.append_subset.2 ⟨fun k hk => List.mem_append_left _ (h.subset hk),
      List.subset_append_right _ _⟩, fun k hk => ?_, fun cls head => ?_⟩
    · rcases List.mem_append.1 hk with hk | hk
      · obtain ⟨j, hj, hsame⟩ := h.covers k hk
        exact ⟨j, List.mem_append_left _ hj, hsame⟩
      · exact ⟨k, List.mem_append_right _ hk, Instance.same_refl k⟩
    · show firstInstance? (g.instances ++ [i]) cls head = _
      rw [firstInstance?_append, h.first, ← firstInstance?_append]

theorem gathers_importAll (h : g.Gathers is) (x : Exports) :
    (g.importAll x).Gathers (is ++ x.instances) := by
  have hentities {es : List Entity} {g : Globals} (hg : g.Gathers is) :
      (es.foldl Globals.addEntity g).Gathers is := by
    induction es generalizing g with
    | nil => exact hg
    | cons e es ih => exact ih ⟨hg.subset, hg.covers, hg.first⟩
  have hinstances {js is : List Instance} {g : Globals} (hg : g.Gathers is) :
      (js.foldl Globals.importInstance g).Gathers (is ++ js) := by
    induction js generalizing is g with
    | nil => rwa [List.append_nil]
    | cons j js ih =>
      rw [List.append_cons]
      exact ih (hg.importInstance j)
  have hg : (x.entities.values.foldl Globals.addEntity g).Gathers is := hentities h
  exact hinstances ⟨hg.subset, hg.covers, hg.first⟩

end Globals

namespace Check

variable {m : Surface.Module} {imports : List Exports} {d start : Declaring}

theorem gathers_initial : (Declaring.initial m imports).globals.Gathers
    (imports.flatMap (·.instances)) := by
  have hfold {xs : List Exports} {is : List Instance} {g : Globals} (hg : g.Gathers is) :
      (xs.foldl Globals.importAll g).Gathers (is ++ xs.flatMap (·.instances)) := by
    induction xs generalizing is g with
    | nil => rwa [List.flatMap_nil, List.append_nil]
    | cons x xs ih =>
      rw [List.flatMap_cons, ← List.append_assoc]
      exact ih (Globals.gathers_importAll hg x)
  exact hfold ⟨List.nil_subset _, fun _ h => absurd h List.not_mem_nil, fun _ _ => rfl⟩

-- Instances of the module

/-- The module's own instances come after those that are imported, and each is found by what no
other is found by. -/
structure Declaring.Separate (imported : List Instance) (d : Declaring) : Prop where
  own : d.globals.instances = imported ++ d.exports.instances
  distinct : d.exports.instances.Pairwise fun i j => i.key ≠ j.key
  fresh : ∀ i ∈ d.exports.instances, ∀ j ∈ imported, i.key ≠ j.key

theorem inductive_separate (imported : List Instance) : Inductive m true (·.Separate imported) := by
  intro d d' h hd
  cases h with
  | report | wireIn | declare | complete | bind | sign | identify | fixity =>
    exact ⟨hd.own, hd.distinct, hd.fresh⟩
  | @inst i hname hnone =>
    have hnew : ∀ j ∈ d.globals.instances, j.key ≠ i.key := by
      intro j hj hkey
      rw [Globals.instanceEnv, InstanceEnv.find?_ofList] at hnone
      have hno := List.find?_eq_none.1 hnone j hj
      exact hno (decide_eq_true hkey)
    rw [hd.own] at hnew
    obtain ⟨himported, hown⟩ := List.forall_mem_append.1 hnew
    refine ⟨?_, ?_, ?_⟩
    · show d.globals.instances ++ [i] = imported ++ (d.exports.instances ++ [i])
      rw [hd.own, List.append_assoc]
    · refine List.pairwise_append.2 ⟨hd.distinct, List.pairwise_singleton _ _, fun j hj k hk => ?_⟩
      obtain rfl := List.mem_singleton.1 hk
      exact hown j hj
    · refine List.forall_mem_append.2 ⟨hd.fresh, List.forall_mem_singleton.2 fun j hj => ?_⟩
      exact (himported j hj).symm

theorem separate_elaborate : (elaborate m imports).declared.Separate
    (Declaring.initial m imports).globals.instances :=
  (elaborated_of_inductive (inductive_separate _)
    ⟨(List.append_nil _).symm, .nil, fun _ h => absurd h List.not_mem_nil⟩).2

theorem Compiled.distinct {x : Exports} (h : Compiled x) :
    x.instances.Pairwise fun i j => i.key ≠ j.key := by
  cases h with
  | intro _ hm =>
    rw [eq_of_module_eq_ok hm]
    exact separate_elaborate.distinct

-- Declarations of instances

/-- The instance declarations of a module. -/
def instanceDecls (decls : List Surface.Decl) : List Surface.InstanceDecl :=
  decls.filterMap fun
    | .inst d => some d
    | _ => none

theorem sublist_instanceDecls (ds : List Surface.Decl) :
    ((instanceDecls ds).map Surface.Decl.inst).Sublist ds := by
  unfold instanceDecls
  induction ds with
  | nil => exact .slnil
  | cons d ds ih =>
    cases d with
    | inst i => exact ih.cons_cons _
    | _ => exact ih.cons _

/-- Instances that are declared come in the order of their declarations. -/
theorem Declare.returns_instancesAndFixities (ds : List Surface.Decl) :
    Preserves (fun _ => True) (instancesAndFixities ds) fun is =>
      (is.map (·.2)).Sublist (instanceDecls ds) := by
  induction ds with
  | nil => exact .pure .slnil
  | cons d ds ih =>
    cases d with
    | inst i =>
      have hinst : Preserves (fun _ => True) (inst i) fun _ => True := fun _ _ => ⟨trivial, trivial⟩
      refine .bind hinst fun x _ => .bind ih fun is his => .pure ?_
      cases x with
      | none => exact his.cons _
      | some x => exact his.cons_cons _
    | fixity f =>
      have hfixity : Preserves (fun _ => True) (fixity f) fun _ => True :=
        fun _ _ => ⟨trivial, trivial⟩
      exact .bind hfixity fun _ _ => ih
    | _ => exact ih

theorem sublist_declared (m : Surface.Module) (imports : List Exports) :
    ((declared m imports).1.map fun x => Surface.Decl.inst x.2).Sublist m.decls := by
  have hdeclared : ((declared m imports).1.map (·.2)).Sublist (instanceDecls m.decls) := by
    rw [declared, Declare.all_eq]
    exact (Declare.returns_instancesAndFixities m.decls _ trivial).2
  have hinst := (hdeclared.map Surface.Decl.inst).trans (sublist_instanceDecls m.decls)
  rwa [List.map_map] at hinst

/-- Nothing is declared since `start`, but there may be reports. -/
def Declaring.Reported (start d : Declaring) : Prop :=
  ∃ rs, d = { start with reports := rs ++ start.reports }

theorem reportable_reported : Reportable (Declaring.Reported start) := by
  rintro _ r _ ⟨rs, rfl⟩
  exact ⟨r :: rs, rfl⟩

theorem Declaring.Reported.refl (d : Declaring) : d.Reported d := ⟨[], rfl⟩

theorem Declaring.Reported.trans {d' : Declaring} (h : start.Reported d) (h' : d.Reported d') :
    start.Reported d' := by
  obtain ⟨rs, rfl⟩ := h
  obtain ⟨rs', rfl⟩ := h'
  exact ⟨rs' ++ rs, by rw [List.append_assoc]⟩

/-- There is an error among the reports. -/
def Declaring.Failed (d : Declaring) : Prop := ∃ r ∈ d.reports, r.isError = true

theorem inductive_failed : Inductive m true Declaring.Failed := by
  rintro d d' h ⟨r, hr, herror⟩
  cases h with
  | report => exact ⟨r, List.mem_cons_of_mem _ hr, herror⟩
  | _ => exact ⟨r, hr, herror⟩

theorem Declaring.Reported.failed (h : start.Reported d) (hs : start.Failed) : d.Failed := by
  obtain ⟨rs, rfl⟩ := h
  obtain ⟨r, hr, herror⟩ := hs
  exact ⟨r, List.mem_append_right _ hr, herror⟩

theorem failed_cons {r : Report} (herror : r.isError = true) :
    Declaring.Failed { d with reports := r :: d.reports } := ⟨r, List.mem_cons_self .., herror⟩

namespace Declare

/-- A name that means no class is reported. -/
theorem reported_classOf (occ : String) (loc : Span) (d : Declaring) :
    let r := (classOf occ loc).run d
    d.Reported r.2 ∧ (r.1 = none → r.2.Failed) := by
  refine ⟨(preserves_classOf reportable_reported occ loc d (.refl d)).1, fun hnone => ?_⟩
  unfold classOf at hnone ⊢
  simp only [StateT.run_bind, StateT.run_get, pure_bind] at hnone ⊢
  split
  · next e he =>
    refine failed_cons ?_
    unfold resolve at he
    split at he <;> cases he <;> rfl
  · next n hn =>
    rw [hn] at hnone
    dsimp only at hnone ⊢
    split
    · next c hc =>
      rw [hc] at hnone
      cases hnone
    · exact failed_cons rfl

theorem run_bind {α β : Type} (act : DeclareM α) (f : α → DeclareM β) (d : Declaring) :
    (act >>= f).run d = (f (act.run d).1).run (act.run d).2 := rfl

/-- What a declaration of an instance comes to, given the instances before it. -/
inductive Instantiated (decl : Surface.InstanceDecl) (before : List Instance) :
    Option Instance × Declaring → Prop
  | reported {d : Declaring} (h : d.Failed) : Instantiated decl before (none, d)
  | added {i : Instance} {d : Declaring} (hloc : i.loc = decl.loc)
      (h : d.exports.instances = before ++ [i]) : Instantiated decl before (some i, d)

theorem instantiated_inst (decl : Surface.InstanceDecl) (d : Declaring) :
    Instantiated decl d.exports.instances ((inst decl).run d) := by
  have hinstances {d' : Declaring} (h : d.Reported d') :
      d'.exports.instances = d.exports.instances := by
    obtain ⟨rs, rfl⟩ := h
    rfl
  obtain ⟨hd, hfailed⟩ := reported_classOf decl.cls decl.loc d
  rw [inst, run_bind]
  generalize (classOf decl.cls decl.loc).run d = x at hd hfailed ⊢
  obtain ⟨cls, d₁⟩ := x
  cases cls with
  | none => exact .reported (hfailed rfl)
  | some cls =>
    dsimp only
    cases headTyvars? decl.head with
    | none => exact .reported (failed_cons rfl)
    | some tyvars =>
      dsimp only
      rw [run_bind, run_bind]
      have hhead := (preserves_typeOf reportable_reported none decl.head d₁ (.refl d₁)).1
      generalize (typeOf none decl.head).run d₁ = x at hhead ⊢
      obtain ⟨headTy, d₂⟩ := x
      have hpreds : Preserves (d₂.Reported ·) (decl.context.mapM (contextPred tyvars))
          fun _ => True :=
        (Preserves.mapM fun p _ => preserves_contextPred reportable_reported tyvars p).weaken
          fun _ _ => trivial
      replace hpreds := (hpreds d₂ (.refl d₂)).1
      generalize (decl.context.mapM (contextPred tyvars)).run d₂ = x at hpreds ⊢
      obtain ⟨preds, d₃⟩ := x
      have hd₃ : d.Reported d₃ := (hd.trans hhead).trans hpreds
      simp only [StateT.run_bind, StateT.run_get, pure_bind]
      split
      · exact .reported (failed_cons rfl)
      · refine .added rfl ?_
        rw [← hinstances hd₃]
        rfl

theorem instances_fixity (decl : Surface.FixityDecl) (d : Declaring) :
    ((fixity decl).run d).2.exports.instances = d.exports.instances := by
  have hkeeps : Preserves (·.exports.instances = d.exports.instances) (fixity decl)
      fun _ => True := preserves_fixity_of (fun _ _ _ h => h) (fun _ _ _ h _ _ => h) decl
  exact (hkeeps d rfl).1

/-- If no error is reported, each declaration of an instance has given one. -/
theorem run_instancesAndFixities (decls : List Surface.Decl) (hd : d.Keyed m) :
    let d' := ((instancesAndFixities decls).run d).2
    d'.Failed ∨ ∃ is, d'.exports.instances = d.exports.instances ++ is ∧
      is.map (·.loc) = (instanceDecls decls).map (·.loc) := by
  induction decls generalizing d with
  | nil => exact .inr ⟨[], (List.append_nil _).symm, rfl⟩
  | cons decl decls ih =>
    cases decl with
    | inst decl =>
      have hstep := instantiated_inst decl d
      have hkeyed := (changes_inst inductive_keyed decl d ⟨hd, hd⟩).1.1
      rw [instancesAndFixities, run_bind]
      generalize (inst decl).run d = x at hstep hkeyed ⊢
      rw [run_bind]
      cases hstep with
      | reported hfailed =>
        exact .inl (changes_instancesAndFixities inductive_failed decls _ ⟨hkeyed, hfailed⟩).1.2
      | @added i d₁ hloc hi =>
        refine (ih hkeyed).imp_right ?_
        rintro ⟨is, his, hlocs⟩
        refine ⟨i :: is, ?_, ?_⟩
        · rw [List.append_cons, ← hi]
          exact his
        · rw [List.map_cons, hlocs, hloc]
          rfl
    | fixity decl =>
      have hkeyed := (changes_fixity inductive_keyed decl d ⟨hd, hd⟩).1.1
      have hinstances := instances_fixity decl d
      rw [instancesAndFixities, run_bind]
      rw [← hinstances]
      exact ih hkeyed
    | _ => exact ih hd

end Declare

theorem inductive_instances (is : List Instance) :
    Inductive m false (·.exports.instances = is) := by
  intro d d' h hd
  cases h <;> exact hd

/-- If no error is reported, the instances of a module are those that it declares, in order. -/
theorem loc_instances_declared
    (hok : ∀ r ∈ (declared m imports).2.reports, r.isError = false) :
    (declared m imports).2.exports.instances.map (·.loc) =
      (instanceDecls m.decls).map (·.loc) := by
  obtain ⟨hkeyed, hnone⟩ := (Declare.changes_names (inductive_instances [])
    (.initial m imports) ⟨keyed_initial, rfl⟩).1
  have hrun : declared m imports = (Declare.instancesAndFixities m.decls).run
      ((Declare.names m).run (.initial m imports)).2 := by
    rw [declared, Declare.all_eq]
    rfl
  rcases Declare.run_instancesAndFixities m.decls hkeyed with ⟨r, hr, herror⟩ | ⟨is, his, hlocs⟩
  · rw [← hrun] at hr
    rw [hok r hr] at herror
    cases herror
  · rw [hrun, his, hnone]
    exact hlocs

theorem instances_elaborate : (elaborate m imports).declared.exports.instances =
    (declared m imports).2.exports.instances :=
  (changes_binds (inductive_instances _) ⟨(declared_of_inductive inductive_keyed keyed_initial).1,
    rfl⟩ (declared m imports).1 _).2

-- Modules that are accepted

variable {k : Checked}

/-- What is found for a constraint before a module declares instances of its own. -/
def importedInstance? (m : Surface.Module) (imports : List Exports) (cls head : Name) :
    Option Instance := (Declaring.initial m imports).globals.instanceEnv.find? cls head

theorem importedInstance?_eq (cls head : Name) : importedInstance? m imports cls head =
    firstInstance? (imports.flatMap (·.instances)) cls head := by
  rw [importedInstance?, Globals.instanceEnv, InstanceEnv.find?_ofList, gathers_initial.first]

theorem coherent_imported : Coherent (Declaring.initial m imports).globals.instances ↔
    Coherent (imports.flatMap (·.instances)) := by
  obtain ⟨hsubset, hcovers, -⟩ : (Declaring.initial m imports).globals.Gathers
    (imports.flatMap (·.instances)) := gathers_initial
  constructor
  · intro h i hi j hj hclash
    obtain ⟨i', hi', hsame⟩ := hcovers i hi
    obtain ⟨j', hj', hsame'⟩ := hcovers j hj
    exact h i' hi' j' hj' (hclash.of_same hsame hsame')
  · exact fun h i hi j hj => h i (hsubset hi) j (hsubset hj)

namespace Declaring.Separate

variable {imported : List Instance}

theorem not_clash (h : d.Separate imported) {i : Instance} (hi : i ∈ d.exports.instances)
    {j : Instance} (hj : j ∈ d.globals.instances) : ¬ i.Clash j := by
  intro hclash
  rw [h.own] at hj
  rcases List.mem_append.1 hj with hj | hj
  · exact h.fresh i hi j hj hclash.1
  · exact hclash.2 (Instance.eq_of_key h.distinct hi hj hclash.1 ▸ Instance.same_refl i)

theorem coherent_iff (h : d.Separate imported) :
    Coherent d.globals.instances ↔ Coherent imported := by
  constructor
  · intro hall i hi j hj
    exact hall i (h.own ▸ List.mem_append_left _ hi) j (h.own ▸ List.mem_append_left _ hj)
  · intro hall i hi j hj hclash
    have hi' := hi
    have hj' := hj
    rw [h.own] at hi' hj'
    rcases List.mem_append.1 hi' with hi' | hi'
    · rcases List.mem_append.1 hj' with hj' | hj'
      · exact hall i hi' j hj' hclash
      · refine h.not_clash hj' hi ⟨hclash.1.symm, fun hsame => hclash.2 ?_⟩
        exact Instance.same_symm hsame
    · exact h.not_clash hi' hj hclash

end Declaring.Separate

-- The order of imports

/-- Both find nothing, or they find the same. -/
def Alike (x y : Option Instance) : Prop := Option.Rel (fun i j => i.same j) x y

theorem firstInstance?_eq_none {is : List Instance} {cls head : Name} :
    firstInstance? is cls head = none ↔ ∀ i ∈ is, i.key ≠ (cls, head) := by
  rw [firstInstance?, List.find?_eq_none]
  simp

theorem of_firstInstance? {is : List Instance} {cls head : Name} {i : Instance}
    (h : firstInstance? is cls head = some i) : i ∈ is ∧ i.key = (cls, head) :=
  ⟨List.mem_of_find?_eq_some h, by simpa using List.find?_some h⟩

/-- Without clashes, the order does not matter. -/
theorem alike_of_coherent {is js : List Instance} (h : Coherent is) (hperm : is.Perm js)
    (cls head : Name) : Alike (firstInstance? is cls head) (firstInstance? js cls head) := by
  cases hi : firstInstance? is cls head with
  | none =>
    have hnone : firstInstance? js cls head = none :=
      firstInstance?_eq_none.2 fun j hj => firstInstance?_eq_none.1 hi j (hperm.mem_iff.2 hj)
    rw [hnone]
    exact .none
  | some i =>
    obtain ⟨hmem, hkey⟩ := of_firstInstance? hi
    cases hj : firstInstance? js cls head with
    | none => exact absurd hkey (firstInstance?_eq_none.1 hj i (hperm.mem_iff.1 hmem))
    | some j =>
      obtain ⟨hmem', hkey'⟩ := of_firstInstance? hj
      refine .some ?_
      by_contra hsame
      exact h i hmem j (hperm.mem_iff.2 hmem') ⟨hkey.trans hkey'.symm, hsame⟩

/-- In what a module exports that was accepted, an instance is the only one that is found like it. -/
theorem Compiled.firstInstance?_eq {x : Exports} (h : Compiled x) {i : Instance}
    (hi : i ∈ x.instances) {cls head : Name} (hkey : i.key = (cls, head)) :
    firstInstance? x.instances cls head = some i := by
  cases hfirst : firstInstance? x.instances cls head with
  | none => exact absurd hkey (firstInstance?_eq_none.1 hfirst i hi)
  | some j =>
    obtain ⟨hj, hkey'⟩ := of_firstInstance? hfirst
    exact congrArg some (Instance.eq_of_key h.distinct hj hi (hkey'.trans hkey.symm))

theorem coherent_of_agree (hi : ∀ x ∈ imports, Compiled x)
    (h : ∀ imports', imports.Perm imports' → ∀ cls head,
      Alike (importedInstance? m imports cls head) (importedInstance? m imports' cls head)) :
    Coherent (imports.flatMap (·.instances)) := by
  -- An import that comes first is the one that its instances are found in.
  have hfirst {x : Exports} (hx : x ∈ imports) {i : Instance} (hi' : i ∈ x.instances) :
      Alike (importedInstance? m imports i.cls i.head) (some i) := by
    obtain ⟨pre, post, rfl⟩ := List.append_of_mem hx
    have hsome : importedInstance? m (x :: (pre ++ post)) i.cls i.head = some i := by
      rw [importedInstance?_eq, List.flatMap_cons, firstInstance?_append,
        (hi x hx).firstInstance?_eq hi' rfl, Option.some_or]
    have hagree := h (x :: (pre ++ post)) List.perm_middle i.cls i.head
    rwa [hsome] at hagree
  intro i hmem j hmem' hclash
  obtain ⟨x, hx, hix⟩ := List.mem_flatMap.1 hmem
  obtain ⟨y, hy, hjy⟩ := List.mem_flatMap.1 hmem'
  have hagree := hfirst hx hix
  have hagree' := hfirst hy hjy
  obtain ⟨hcls, hhead⟩ := Prod.mk.inj (show (i.cls, i.head) = (j.cls, j.head) from hclash.1)
  rw [← hcls, ← hhead] at hagree'
  generalize importedInstance? m imports i.cls i.head = found at hagree hagree'
  cases hagree with
  | some hsame =>
    cases hagree' with
    | some hsame' =>
      exact hclash.2 (Instance.same_trans (Instance.same_symm hsame) hsame')

/-- In a module that is accepted, each declaration of an instance has given one, and these clash with
no instance that the module knows. So it knows instances that clash only if they are imported. For
imports that were accepted that is so if and only if the order of the imports decides what is found
for some constraint. -/
theorem coherent_iff_imports (h : module m imports = .ok k) :
    k.exports.instances.map (·.loc) = (instanceDecls m.decls).map (·.loc) ∧
      (∀ i ∈ k.exports.instances, i ∈ k.globals.instances ∧
        ∀ j ∈ k.globals.instances, ¬ i.Clash j) ∧
      (∀ cls head, k.globals.instanceEnv.find? cls head =
        (importedInstance? m imports cls head).or
          (firstInstance? k.exports.instances cls head)) ∧
      (Coherent k.globals.instances ↔ Coherent (imports.flatMap (·.instances))) ∧
      ((∀ x ∈ imports, Compiled x) → (Coherent k.globals.instances ↔
        ∀ imports', imports.Perm imports' → ∀ cls head,
          Alike (importedInstance? m imports cls head) (importedInstance? m imports' cls head))) := by
  obtain ⟨hno, -⟩ := of_module_eq_ok h
  have hseparate : (elaborate m imports).declared.Separate
      (Declaring.initial m imports).globals.instances := separate_elaborate
  have hcoherent : Coherent (elaborate m imports).declared.globals.instances ↔
      Coherent (imports.flatMap (·.instances)) := hseparate.coherent_iff.trans coherent_imported
  rw [eq_of_module_eq_ok h]
  refine ⟨?_, fun i hi => ⟨?_, fun j => hseparate.not_clash hi⟩, fun cls head => ?_, hcoherent,
    fun hi => hcoherent.trans ⟨fun hc imports' hperm cls head => ?_, coherent_of_agree hi⟩⟩
  · show (elaborate m imports).declared.exports.instances.map _ = _
    rw [instances_elaborate]
    exact loc_instances_declared fun r hr => hno r (reports_declared_subset hr)
  · show i ∈ (elaborate m imports).declared.globals.instances
    rw [hseparate.own]
    exact List.mem_append_right _ hi
  · show (elaborate m imports).declared.globals.instanceEnv.find? cls head = _
    rw [importedInstance?, Globals.instanceEnv, Globals.instanceEnv, InstanceEnv.find?_ofList,
      InstanceEnv.find?_ofList, hseparate.own, firstInstance?_append]
    rfl
  · rw [importedInstance?_eq, importedInstance?_eq]
    exact alike_of_coherent hc (hperm.flatMap_right _) cls head

-- Two instances that are imported

/-- The module of a text. -/
def ofText (text : String) : Surface.Module :=
  ((Surface.parseModule 8 none text).toOption).getD ⟨"", [], [], .unknown, .unknown⟩

theorem parseModule_ofText {text : String} (h : (Surface.parseModule 8 none text).toBool = true) :
    Surface.parseModule 8 none text = .ok (ofText text) := by
  unfold ofText
  cases hm : Surface.parseModule 8 none text with
  | error e => rw [hm] at h; cases h
  | ok m => rfl

def exportsOf (text : String) (imports : List Exports) : Exports :=
  (run (ofText text) imports).checked.exports

theorem module_eq_run (h : (module m imports).toBool = true) :
    module m imports = .ok (run m imports).checked := by
  cases hm : module m imports with
  | error e => rw [hm] at h; cases h
  | ok k => rw [eq_of_module_eq_ok hm]

/-- A class and a type. -/
def classText : String := "module A\nclass K a where\n  k :: a -> a\ndata T = T"

/-- An instance of the one for the other. -/
def instanceText (module : String) : String := "module " ++ module ++ "\ninstance K T where\n  k x = x"

/-- The class with its type, and two modules that declare the same instance. -/
def twoInstances : List Exports :=
  let classes := exportsOf classText []
  [classes, exportsOf (instanceText "B") [classes], exportsOf (instanceText "C") [classes]]

theorem compiled_twoInstances : ∀ x ∈ twoInstances, Compiled x := by
  have hcompiled {text : String} {imports : List Exports} (hi : ∀ x ∈ imports, Compiled x)
      (h : (module (ofText text) imports).toBool = true) : Compiled (exportsOf text imports) :=
    .intro hi (module_eq_run h)
  have hclasses : Compiled (exportsOf classText []) :=
    hcompiled (fun _ h => absurd h List.not_mem_nil) (by decide +kernel)
  refine List.forall_mem_cons.2 ⟨hclasses, List.forall_mem_cons.2 ⟨?_, List.forall_mem_singleton.2 ?_⟩⟩
  · exact hcompiled (List.forall_mem_singleton.2 hclasses) (by decide +kernel)
  · exact hcompiled (List.forall_mem_singleton.2 hclasses) (by decide +kernel)

theorem module_twoInstances : module (ofText "f = k T") twoInstances =
    .ok (run (ofText "f = k T") twoInstances).checked :=
  module_eq_run (by decide +kernel)

theorem not_coherent_twoInstances :
    ¬ Coherent (run (ofText "f = k T") twoInstances).checked.globals.instances := by
  decide +kernel

/-- A module that is accepted may know instances that clash. -/
theorem clash_of_imports : ¬ ∀ m imports k, (∀ x ∈ imports, Compiled x) →
    module m imports = .ok k → Coherent k.globals.instances := fun h =>
  not_coherent_twoInstances (h _ _ _ compiled_twoInstances module_twoInstances)

/-- Which of the two is found depends on the order of the imports. -/
theorem order_of_twoInstances :
    ¬ Coherent (twoInstances.flatMap (·.instances)) ∧
      ¬ ∀ imports', twoInstances.Perm imports' → ∀ cls head,
        Alike (importedInstance? (ofText "f = k T") twoInstances cls head)
          (importedInstance? (ofText "f = k T") imports' cls head) := by
  obtain ⟨-, -, -, himports, horder⟩ := coherent_iff_imports module_twoInstances
  exact ⟨himports.not.1 not_coherent_twoInstances,
    (horder compiled_twoInstances).not.1 not_coherent_twoInstances⟩

end Check

end TypeLens
