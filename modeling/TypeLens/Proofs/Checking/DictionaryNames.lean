import TypeLens.Proofs.Checking.Resolution

/-!
Names of dictionaries. A name is made of the texts of the class and of the type constructor, with no
mark between them, and the list type is spelled like a name that a module can declare. So it may be
the name of two instances; it is told exactly when that is so.
-/

namespace TypeLens

namespace Instance

/-- The text that stands for the type constructor in the name of the dictionary. -/
def headText (i : Instance) : String :=
  if i.head = Builtin.listTyCon then "List" else i.head.occ

/-- The names of the classes and type constructors come to the same text. -/
inductive Confused (i j : Instance) : Prop
  /-- Next to the list type there is a type whose name is `List`. -/
  | list (hcls : i.cls = j.cls) (hi : i.head = Builtin.listTyCon) (hj : j.head ≠ Builtin.listTyCon)
      (hocc : j.head.occ = "List")
  /-- What one of them has at the end of the class, the other has in front of the type. -/
  | shifted {s : String} (hs : s ≠ "") (hcls : j.cls.occ = i.cls.occ ++ s)
      (hhead : i.headText = s ++ j.headText)

end Instance

theorem String.append_eq_append_iff {a b c d : String} : a ++ b = c ++ d ↔
    (∃ s, c = a ++ s ∧ b = s ++ d) ∨ ∃ s, a = c ++ s ∧ d = s ++ b := by
  constructor
  · intro h
    have hlists := congrArg String.toList h
    rw [String.toList_append, String.toList_append, List.append_eq_append_iff] at hlists
    rcases hlists with ⟨l, hc, hb⟩ | ⟨l, ha, hd⟩
    · refine .inl ⟨String.ofList l, ?_, ?_⟩
      · apply String.toList_injective
        rw [hc, String.toList_append, String.toList_ofList]
      · apply String.toList_injective
        rw [hb, String.toList_append, String.toList_ofList]
    · refine .inr ⟨String.ofList l, ?_, ?_⟩
      · apply String.toList_injective
        rw [ha, String.toList_append, String.toList_ofList]
      · apply String.toList_injective
        rw [hd, String.toList_append, String.toList_ofList]
  · rintro (⟨s, rfl, rfl⟩ | ⟨s, rfl, rfl⟩)
    · exact (String.append_assoc ..).symm
    · exact String.append_assoc ..

namespace Check

variable {m : Surface.Module} {imports : List Exports} {d : Declaring} {sc : Scope}

/-- The class and the type constructor of an instance are the only ones of their spelling. -/
structure HeadResolves (sc : Scope) (i : Instance) : Prop where
  space : i.cls.space = .type
  cls : sc.unqualified i.cls = true
  head : i.head = Builtin.listTyCon ∨ i.head.space = .type ∧ sc.unqualified i.head = true

theorem Declares.resolved {g : Globals} {decl : Surface.InstanceDecl} {i : Instance}
    (h : Declares g decl i) (hg : g.scope.Keyed) : HeadResolves g.scope i := by
  obtain ⟨hspace, -, hcls⟩ := unqualified_of_resolves hg h.cls
  obtain ⟨occ, args, loc, -, hbuilds⟩ := h.head
  refine ⟨hspace, hcls, ?_⟩
  generalize i.head = head at hbuilds
  cases hbuilds with
  | list => exact .inl rfl
  | named hc _ =>
    obtain ⟨hspace, -, hhead⟩ := unqualified_of_resolves hg hc
    exact .inr ⟨hspace, hhead⟩

/-- No more names are declared, and all instances are of names in scope, unless there is an error. -/
structure Declaring.Resolves (sc : Scope) (d : Declaring) : Prop where
  scope : d.globals.scope = sc
  instances : d.Failed ∨ ∀ i ∈ d.exports.instances, HeadResolves sc i

theorem Declaring.Resolves.reported {d' : Declaring} (hd : d.Resolves sc) (h : d.Reported d') :
    d'.Resolves sc := by
  have hfailed : d.Failed → d'.Failed := h.failed
  obtain ⟨rs, rfl⟩ := h
  exact ⟨hd.scope, hd.instances.imp_left hfailed⟩

namespace Declare

theorem resolves_inst (hsc : sc.Keyed) (decl : Surface.InstanceDecl) :
    Preserves (·.Resolves sc) (inst decl) fun _ => True := by
  intro d hd
  refine ⟨?_, trivial⟩
  rcases run_inst decl d with ⟨d', hrun, hd', -⟩ | ⟨i, d', hd', hdecl, -, hrun⟩
  · rw [hrun]
    exact hd.reported hd'
  · rw [hrun]
    obtain ⟨hscope, hinstances⟩ := hd.reported hd'
    refine ⟨hscope, ?_⟩
    rcases hdecl with hfailed | hdecl
    · exact .inl hfailed
    · refine hinstances.imp id fun h => List.forall_mem_append.2 ⟨h, ?_⟩
      have hi := hdecl.resolved (hd.scope ▸ hsc)
      rw [hd.scope] at hi
      exact List.forall_mem_singleton.2 hi

theorem resolves_instancesAndFixities (hsc : sc.Keyed) (decls : List Surface.Decl) :
    Preserves (·.Resolves sc) (instancesAndFixities decls) fun _ => True := by
  have hinst (decl : Surface.InstanceDecl) : Preserves (·.Resolves sc) (inst decl)
      fun r => ∀ i ∈ r, True := (resolves_inst hsc decl).weaken fun _ _ _ _ => trivial
  have hfixity := preserves_fixity_of (I := (·.Resolves sc))
    (fun d r _ hd => hd.reported ⟨[r], rfl⟩) fun _ _ _ hd _ _ => ⟨hd.scope, hd.instances⟩
  exact (preserves_instancesAndFixities_of hinst hfixity decls).weaken fun _ _ => trivial

end Declare

/-- Instances of a module are of names in its scope, if no error is reported on its declarations. -/
theorem resolved_declared (hok : ∀ r ∈ (declared m imports).2.reports, r.isError = false) :
    ∃ sc : Scope, ∀ i ∈ (declared m imports).2.exports.instances, HeadResolves sc i := by
  let start := ((Declare.names m).run (.initial m imports)).2
  obtain ⟨-, hnone⟩ := (Declare.changes_names (inductive_instances [])
    (.initial m imports) ⟨keyed_initial, rfl⟩).1
  obtain ⟨-, hkeyed⟩ := (Declare.changes_names (inductive_scopeKeyed : Inductive m false _)
    (.initial m imports) ⟨keyed_initial, scopeKeyed_initial⟩).1
  have hstart : start.Resolves start.globals.scope :=
    ⟨rfl, .inr fun i hi => absurd (hnone ▸ hi) List.not_mem_nil⟩
  have hrun : declared m imports = (Declare.instancesAndFixities m.decls).run start := by
    rw [declared, Declare.all_eq]
    rfl
  have hd := (Declare.resolves_instancesAndFixities hkeyed m.decls start hstart).1
  rw [← hrun] at hd
  refine ⟨_, hd.instances.resolve_left ?_⟩
  rintro ⟨r, hr, herror⟩
  rw [hok r hr] at herror
  cases herror

theorem inductive_instanceNames : Inductive m true fun d =>
    ∀ i ∈ d.exports.instances, i.name = Declare.instanceName m.name i.cls i.head := by
  intro d d' h hd
  cases h with
  | inst hname _ => exact List.forall_mem_append.2 ⟨hd, List.forall_mem_singleton.2 hname⟩
  | _ => exact hd

theorem name_eq_iff_texts {i j : Instance}
    (hi : i.name = Declare.instanceName m.name i.cls i.head)
    (hj : j.name = Declare.instanceName m.name j.cls j.head) :
    i.name = j.name ↔ i.cls.occ ++ i.headText = j.cls.occ ++ j.headText := by
  have hocc (k : Instance) : Declare.instanceName m.name k.cls k.head =
      topName m.name .value ("$f" ++ (k.cls.occ ++ k.headText)) := by
    rw [← String.append_assoc]
    rfl
  rw [hi, hj, hocc i, hocc j]
  constructor
  · intro h
    have htexts := congrArg Name.occ h
    exact (String.append_right_inj _).1 htexts
  · intro h
    rw [h]

/-- Texts that are the same belong to names that are confused. -/
theorem confused_of_texts {i j : Instance} (hi : HeadResolves sc i) (hj : HeadResolves sc j)
    (hkey : i.key ≠ j.key) (h : i.cls.occ ++ i.headText = j.cls.occ ++ j.headText) :
    i.Confused j ∨ j.Confused i := by
  have hequal (hocc : i.cls.occ = j.cls.occ) (hhead : i.headText = j.headText) :
      i.Confused j ∨ j.Confused i := by
    have hcls : i.cls = j.cls :=
      Scope.eq_of_unqualified hi.cls hj.cls (hi.space.trans hj.space.symm) hocc
    have hne : i.head ≠ j.head := fun h => hkey (Prod.ext hcls h)
    unfold Instance.headText at hhead
    by_cases hil : i.head = Builtin.listTyCon
    · have hjl : j.head ≠ Builtin.listTyCon := fun h => hne (hil.trans h.symm)
      rw [if_pos hil, if_neg hjl] at hhead
      exact .inl (.list hcls hil hjl hhead.symm)
    · rw [if_neg hil] at hhead
      by_cases hjl : j.head = Builtin.listTyCon
      · rw [if_pos hjl] at hhead
        exact .inr (.list hcls.symm hjl hil hhead)
      · rw [if_neg hjl] at hhead
        obtain ⟨hispace, hiu⟩ := hi.head.resolve_left hil
        obtain ⟨hjspace, hju⟩ := hj.head.resolve_left hjl
        exact absurd (Scope.eq_of_unqualified hiu hju (hispace.trans hjspace.symm) hhead) hne
  rcases String.append_eq_append_iff.1 h with ⟨s, hcls, hhead⟩ | ⟨s, hcls, hhead⟩
  · by_cases hs : s = ""
    · subst hs
      rw [String.append_empty] at hcls
      rw [String.empty_append] at hhead
      exact hequal hcls.symm hhead
    · exact .inl (.shifted hs hcls hhead)
  · by_cases hs : s = ""
    · subst hs
      rw [String.append_empty] at hcls
      rw [String.empty_append] at hhead
      exact hequal hcls hhead.symm
    · exact .inr (.shifted hs hcls hhead)

theorem texts_of_confused {i j : Instance} (h : i.Confused j) :
    i.cls.occ ++ i.headText = j.cls.occ ++ j.headText := by
  cases h with
  | list hcls hi hj hocc =>
    unfold Instance.headText
    rw [if_pos hi, if_neg hj, hocc, hcls]
  | shifted _ hcls hhead => rw [hcls, hhead, String.append_assoc]

/-- In a module that is accepted, two instances have one name for their dictionaries if and only if
their classes and type constructors are confused. -/
theorem sharedName_iff_confused {k : Checked} (h : module m imports = .ok k) {i j : Instance}
    (hi : i ∈ k.exports.instances) (hj : j ∈ k.exports.instances) (hij : i ≠ j) :
    i.name = j.name ↔ i.Confused j ∨ j.Confused i := by
  obtain ⟨hno, -⟩ := of_module_eq_ok h
  rw [eq_of_module_eq_ok h] at hi hj
  have hinstances : (elaborate m imports).declared.exports.instances =
      (declared m imports).2.exports.instances := instances_elaborate
  have hkey : i.key ≠ j.key := fun hkey => hij (Instance.eq_of_key separate_elaborate.distinct
    hi hj hkey)
  have hnames : ∀ i ∈ (elaborate m imports).declared.exports.instances,
      i.name = Declare.instanceName m.name i.cls i.head :=
    (elaborated_of_inductive inductive_instanceNames fun _ h => absurd h List.not_mem_nil).2
  have hdeclared : ∀ r ∈ (declared m imports).2.reports, r.isError = false :=
    fun r hr => hno r (reports_declared_subset hr)
  obtain ⟨sc, hresolved⟩ := resolved_declared hdeclared
  rw [← hinstances] at hresolved
  rw [name_eq_iff_texts (hnames i hi) (hnames j hj)]
  constructor
  · exact confused_of_texts (hresolved i hi) (hresolved j hj) hkey
  · rintro (h | h)
    · exact texts_of_confused h
    · exact (texts_of_confused h).symm

/-- Instances for lists and for a type whose name is `List`. -/
def listsText : String :=
  "module M\nclass K a where\n  k :: a -> a\ndata List a = N\n" ++
    "instance K [a] where\n  k x = x\ninstance K (List a) where\n  k x = x"

theorem module_lists : module (ofText listsText) [] = .ok (run (ofText listsText) []).checked :=
  module_eq_run (by decide +kernel)

theorem exists_sharedName_lists : ∃ i ∈ (run (ofText listsText) []).checked.exports.instances,
    ∃ j ∈ (run (ofText listsText) []).checked.exports.instances, i ≠ j ∧ i.name = j.name := by
  decide +kernel

/-- The two instances have one name, and they are confused. -/
theorem confused_lists : ∃ k, module (ofText listsText) [] = .ok k ∧
    ∃ i ∈ k.exports.instances, ∃ j ∈ k.exports.instances, i ≠ j ∧ i.name = j.name ∧
      (i.Confused j ∨ j.Confused i) := by
  obtain ⟨i, hi, j, hj, hij, hname⟩ := exists_sharedName_lists
  have hconfused := (sharedName_iff_confused module_lists hi hj hij).1 hname
  exact ⟨_, module_lists, i, hi, j, hj, hij, hname, hconfused⟩

/-- Two instances of a module that is accepted may have one name for their dictionaries. -/
theorem sharedName_of_lists : ¬ ∀ m imports k, module m imports = .ok k →
    ∀ i ∈ k.exports.instances, ∀ j ∈ k.exports.instances, i ≠ j → i.name ≠ j.name := by
  intro h
  obtain ⟨i, hi, j, hj, hij, hname⟩ := exists_sharedName_lists
  exact h _ _ _ module_lists i hi j hj hij hname

end Check

end TypeLens
