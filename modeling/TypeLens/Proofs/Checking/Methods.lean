import TypeLens.Proofs.Checking.Compiled
import TypeLens.Proofs.Checking.Supply
import TypeLens.Proofs.Lowering.Capture

/-!
The types that methods are checked at. The variables of a method that are also variables of the
instance get new names, and those may be names that other variables of the method keep.
-/

namespace TypeLens.Check

-- Names

/-- No variable has a name that is picked for another one, and that it does not lose itself. -/
def Apart (taken vs : List String) : Prop :=
  ∀ v ∈ vs, v ∉ taken → v ∉ freshTyvars taken (vs.countP (· ∈ taken))

instance decidableApart (taken vs : List String) : Decidable (Apart taken vs) :=
  inferInstanceAs (Decidable (∀ v ∈ vs, _))

theorem take_freshTyvars (taken : List String) {k n : Nat} (h : k ≤ n) :
    (freshTyvars taken n).take k = freshTyvars taken k := by
  have hprefix : freeNames taken k <+: freeNames taken n := by
    obtain ⟨j, rfl⟩ := Nat.exists_eq_add_of_le h
    have hrange : List.range (k + taken.length) <+: List.range (k + j + taken.length) := by
      have hsum : k + j + taken.length = (k + taken.length) + j := by omega
      rw [hsum, @List.range_add (k + taken.length)]
      exact List.prefix_append _ _
    exact (hrange.map tyvarName).filter _
  have hlen : k ≤ (freeNames taken k).length := by
    have hk := length_freshTyvars taken k
    rw [freshTyvars_eq, List.length_take] at hk
    omega
  obtain ⟨rest, hrest⟩ := hprefix
  rw [freshTyvars_eq, freshTyvars_eq, List.take_take, ← hrest, Nat.min_eq_left h,
    List.take_append_of_le_length hlen]

theorem renameTaken_perm {taken supply vs : List String}
    (h : vs.countP (· ∈ taken) ≤ supply.length) :
    (renameTaken taken supply vs).Perm
      (vs.filter (· ∉ taken) ++ supply.take (vs.countP (· ∈ taken))) := by
  induction vs generalizing supply with
  | nil => simp [renameTaken]
  | cons v vs ih =>
    by_cases hv : v ∈ taken
    · cases supply with
      | nil => simp [hv] at h
      | cons n ns =>
        simp only [List.countP_cons, hv, decide_true, if_true, List.length_cons] at h
        have hrest := @ih ns (by omega)
        simp only [renameTaken, hv, not_true, if_false, List.filter_cons, decide_false,
          Bool.false_eq_true, List.countP_cons, decide_true, if_true, List.take_succ_cons]
        exact (hrest.cons n).trans List.perm_middle.symm
    · simp only [List.countP_cons, hv, decide_false, Bool.false_eq_true, if_false,
        Nat.add_zero] at h
      simp only [renameTaken, hv, not_false_eq_true, if_true, List.filter_cons, decide_true,
        List.countP_cons, decide_false, Bool.false_eq_true, if_false, Nat.add_zero,
        List.cons_append]
      exact (ih h).cons v

theorem length_renameTaken (taken supply vs : List String) :
    (renameTaken taken supply vs).length = vs.length := by
  induction vs generalizing supply with
  | nil => rfl
  | cons v vs ih =>
    unfold renameTaken
    split
    · rw [List.length_cons, List.length_cons, ih]
    · cases supply with
      | nil | cons => simp [ih]

section

variable {taken vs : List String}

/-- What becomes of variables, with as many new names as there are variables. -/
def renamed (taken vs : List String) : List String :=
  renameTaken taken (freshTyvars taken vs.length) vs

theorem renamed_perm (taken vs : List String) :
    (renamed taken vs).Perm
      (vs.filter (· ∉ taken) ++ freshTyvars taken (vs.countP (· ∈ taken))) := by
  have hcount : vs.countP (· ∈ taken) ≤ vs.length := List.countP_le_length
  have hperm : (renamed taken vs).Perm _ :=
    renameTaken_perm (Nat.le_trans hcount (Nat.le_of_eq (length_freshTyvars taken vs.length).symm))
  rwa [take_freshTyvars taken hcount] at hperm

theorem not_mem_of_mem_renamed {v : String} (h : v ∈ renamed taken vs) : v ∉ taken := by
  rcases List.mem_append.1 ((renamed_perm taken vs).mem_iff.1 h) with h | h
  · simpa using (List.mem_filter.1 h).2
  · exact not_mem_of_mem_freshTyvars h

theorem nodup_renamed_iff (hvs : vs.Nodup) : (renamed taken vs).Nodup ↔ Apart taken vs := by
  have hkept : (vs.filter (· ∉ taken)).Nodup := hvs.filter _
  rw [(renamed_perm taken vs).nodup_iff, List.nodup_append]
  refine ⟨fun ⟨_, _, hne⟩ v hv ht hnew => ?_, fun h => ⟨hkept, nodup_freshTyvars _ _, ?_⟩⟩
  · exact hne v (List.mem_filter.2 ⟨hv, by simpa using ht⟩) v hnew rfl
  · rintro v hv w hw rfl
    obtain ⟨hv, ht⟩ := List.mem_filter.1 hv
    exact h v hv (by simpa using ht) hw

end

theorem exists_eq_map {vs names : List String} (hvs : vs.Nodup)
    (h : names.length = vs.length) : ∃ ρ : String → String, names = vs.map ρ := by
  induction vs generalizing names with
  | nil => exact ⟨id, List.length_eq_zero_iff.1 h⟩
  | cons v vs ih =>
    obtain ⟨n, ns, rfl⟩ := List.exists_cons_of_length_eq_add_one h
    obtain ⟨hv, hvs⟩ := List.nodup_cons.1 hvs
    obtain ⟨ρ, rfl⟩ := ih hvs (Nat.succ.inj h)
    refine ⟨fun w => if w = v then n else ρ w, ?_⟩
    have htail : vs.map ρ = vs.map fun w => if w = v then n else ρ w :=
      List.map_congr_left fun w hw => (if_neg fun h : w = v => hv (h ▸ hw)).symm
    rw [List.map_cons, if_pos rfl, htail]

-- Types

/-- A type for a method in an instance: the class variable stands for the head of the instance, and
the other variables have names apart from each other and from the variables of the instance. -/
def IsMethodType (tyvar : String) (i : Instance) (s : Scheme) (t : Ty) : Prop :=
  ∃ ρ : String → String, (∀ v ∈ s.tvs.tail, ∀ w ∈ s.tvs.tail, ρ v = ρ w → v = w) ∧
    (∀ v ∈ s.tvs.tail, ρ v ∉ i.tyvars) ∧
    t = s.body.substVars fun v => some (if v = tyvar then i.headTy else .var (ρ v))

section

variable {tyvar : String} {s : Scheme} (hs : s.OfMethod tyvar)
include hs

theorem methodScheme_body {ρ : String → String} (i : Instance)
    (hρ : renamed i.tyvars s.tvs.tail = s.tvs.tail.map ρ) :
    (methodScheme tyvar i s).body =
      s.body.substVars fun v => some (if v = tyvar then i.headTy else .var (ρ v)) := by
  let image (v : String) : Ty := if v = tyvar then i.headTy else .var (ρ v)
  have himages : i.headTy :: (renamed i.tyvars s.tvs.tail).map .var =
      (tyvar :: s.tvs.tail).map image := by
    have htail : s.tvs.tail.map image = (s.tvs.tail.map ρ).map .var := by
      rw [List.map_map]
      refine List.map_congr_left fun v hv => ?_
      exact if_neg (hs.mem_tail_iff.1 hv).2
    rw [hρ, List.map_cons, htail]
    simp [image]
  have hbody : (methodScheme tyvar i s).body = s.body.substVars
      (assign (tyvar :: s.tvs.tail) (i.headTy :: (renamed i.tyvars s.tvs.tail).map .var)) := by
    rw [methodScheme, List.drop_one]
    rfl
  rw [hbody, himages, Ty.substVars_eq_iff]
  intro v hv
  have hmem : v ∈ tyvar :: s.tvs.tail := by
    by_cases h : v = tyvar
    · exact h ▸ List.mem_cons_self ..
    · exact List.mem_cons_of_mem _ (hs.mem_tail_iff.2 ⟨hv, h⟩)
  rw [assign_map_self, if_pos hmem]

/-- The type that a method is checked at is right if and only if the names stay apart. -/
theorem isMethodType_iff (i : Instance) :
    IsMethodType tyvar i s (methodScheme tyvar i s).body ↔ Apart i.tyvars s.tvs.tail := by
  obtain ⟨ρ, hρ⟩ : ∃ ρ, renamed i.tyvars s.tvs.tail = s.tvs.tail.map ρ :=
    exists_eq_map hs.nodup_tail (length_renameTaken _ _ _)
  have hinj {ρ : String → String} : (∀ v ∈ s.tvs.tail, ∀ w ∈ s.tvs.tail, ρ v = ρ w → v = w) ↔
      (s.tvs.tail.map ρ).Nodup :=
    (List.nodup_map_iff_inj_on hs.nodup_tail).symm
  have hfree : ∀ v ∈ s.tvs.tail, ρ v ∉ i.tyvars := fun v hv =>
    not_mem_of_mem_renamed (hρ ▸ List.mem_map_of_mem hv)
  rw [← nodup_renamed_iff hs.nodup_tail, hρ]
  refine ⟨fun ⟨ρ', hinj', _, hbody⟩ => ?_, fun h => ⟨ρ, hinj.2 h, hfree, methodScheme_body hs i hρ⟩⟩
  rw [methodScheme_body hs i hρ, Ty.substVars_eq_iff] at hbody
  have hsame : ∀ v ∈ s.tvs.tail, ρ v = ρ' v := by
    intro v hv
    obtain ⟨hfree, hne⟩ := hs.mem_tail_iff.1 hv
    simpa [hne] using hbody v hfree
  rw [List.map_congr_left hsame]
  exact hinj.1 hinj'

end

-- Bindings

/-- The binding of a function whose equations were checked against the type of the scheme. -/
def CheckedAt (s : Scheme) (j : FunJob) (b : Typed.Bind) : Prop :=
  ∃ n ds env st, b = .abs s.tvs ds [⟨⟨n, s⟩, ⟨n, .mono s.body⟩⟩]
    [.fn ⟨n, .mono s.body⟩ ((checkGroup env s.body j.first j.rest).run st).1 j.loc] j.loc

theorem returns_checkSigned (env : Env) (poly : Typed.Ident) (j : FunJob) :
    Returns (checkSigned env poly j) (CheckedAt poly.scheme j) := fun s => by
  let act : CheckM (List Typed.DictVar) :=
    poly.scheme.preds.mapM fun p => return ⟨← dictName env p.cls, p⟩
  let givens := (act.run s).1
  let inner : Env :=
    { env with givens := env.givens ++ givens, rigid := env.rigid ++ poly.scheme.tvs }
  exact ⟨poly.name, givens, inner, { (act.run s).2 with wanted := [] }, rfl⟩

/-- A method of the class in an instance, with equations that were checked at its type there. -/
def MethodBind (c : TypeClass) (i : Instance) (j : FunJob) (b : Typed.Bind) : Prop :=
  ∃ x ∈ c.methods, x.name.occ = j.name ∧ CheckedAt (methodScheme c.tyvar i x.scheme) j b

theorem returns_methodBinds (env : Env) (c : TypeClass) (i : Instance) (seen : List String)
    (js : List FunJob) :
    Returns (methodBinds env c i seen js) fun r => ∀ b ∈ r.1, ∃ j ∈ js, MethodBind c i j b := by
  induction js generalizing seen with
  | nil => exact .pure (by simp)
  | cons j js ih =>
    have ih (seen : List String) : Returns (methodBinds env c i seen js)
        fun r => ∀ b ∈ r.1, ∃ j' ∈ j :: js, MethodBind c i j' b := fun s b hb => by
      obtain ⟨j', hj', hbind⟩ := ih seen s b hb
      exact ⟨j', List.mem_cons_of_mem _ hj', hbind⟩
    unfold methodBinds
    split
    · exact .skip fun _ => ih _
    next x hx =>
    split
    · exact .skip fun _ => ih _
    · refine .skip fun n => .bind (returns_checkSigned _ _ _) fun b hb => ?_
      refine .bind (ih _) fun r hr => .pure (List.forall_mem_cons.2 ⟨?_, hr⟩)
      have hname : x.name.occ = j.name := by simpa using List.find?_some hx
      exact ⟨j, List.mem_cons_self .., x, List.mem_of_find?_eq_some hx, hname, hb⟩

theorem returns_instanceBinds (g : Globals) (d : Instance × Surface.InstanceDecl) :
    Returns (instanceBinds g d) fun bs => ∀ b ∈ bs, ∃ c j, j ∈ d.2.binds.map funJob ∧
      g.entity? d.1.cls = some (.typeClass c) ∧ MethodBind c d.1 j b := by
  unfold instanceBinds
  split
  · next c hc =>
    refine .bind (returns_methodBinds _ c d.1 [] _) fun r hr => .skip fun _ => .pure fun b hb => ?_
    obtain ⟨j, hj, hbind⟩ := hr b hb
    exact ⟨c, j, hj, hc, hbind⟩
  · exact .pure (by simp)

/-- In every module, the equations of an instance are checked at the types that methods have there,
and in a module whose declarations are accepted such a type is right if and only if no variable that
keeps its name has one that is picked for another. -/
theorem methods_checkedAt_iff {m : Surface.Module} {imports : List Exports}
    (hi : ∀ x ∈ imports, Compiled x)
    (hok : ∀ r ∈ (declared m imports).2.reports, r.isError = false) :
    let g := (elaborate m imports).declared.globals
    (∃ top methods, (elaborate m imports).binds = top ++ methods.flatten ∧
      List.Forall₂ (fun d bs => ∀ b ∈ bs, ∃ c j, j ∈ d.2.binds.map funJob ∧
        g.entity? d.1.cls = some (.typeClass c) ∧ MethodBind c d.1 j b)
        (declared m imports).1 methods) ∧
    ∀ d ∈ (declared m imports).1, ∀ c, g.entity? d.1.cls = some (.typeClass c) →
      ∀ x ∈ c.methods,
        (IsMethodType c.tyvar d.1 x.scheme (methodScheme c.tyvar d.1 x.scheme).body ↔
          Apart d.1.tyvars x.scheme.tvs.tail) := by
  intro g
  refine ⟨?_, fun d _ c hc x hx => ?_⟩
  · let start : State := { reports := (declared m imports).2.reports }
    let groups := Surface.groupsOf (jobs m.bindings) (declared m imports).2.signatures.keys
    let top := (topGroups (declared m imports).2 groups).run start
    let act := (declared m imports).1.mapM (instanceBinds g)
    exact ⟨top.1.1, (act.run top.2).1, rfl,
      Returns.mapM (fun d _ => returns_instanceBinds g d) top.2⟩
  · have himports : ∀ x ∈ imports, x.WellFormed True := fun x hx => (hi x hx).wellFormed
    have honce : ClassesOnce m := (sound_declared himports).2.2 hok
    obtain ⟨-, hclass⟩ := (wellFormed_elaborate himports).globals.of_entity? hc
    exact isMethodType_iff ((hclass x hx).2 honce) d.1

/-- The module with `class C x where m :: x -> rest`, `data T b = T b` and
`instance C (T b) where m t args = y`. -/
def methodModule (rest : Surface.TypeExpr) (args : List String) : Surface.Module :=
  let tyvar (v : String) : Surface.TypeExpr := .var v .unknown
  let data : Surface.DataDecl := ⟨"T", ["b"], [⟨"T", [tyvar "b"], .unknown⟩], .unknown, .unknown⟩
  let sig : Surface.TypeSig :=
    ⟨[("m", .unknown)], ⟨[], .fn (tyvar "x") rest .unknown, .unknown⟩, .unknown⟩
  let equation : Surface.Match :=
    .mk (("t" :: args).map fun v => .var v .unknown) (.var "y" .unknown) .unknown
  let inst : Surface.InstanceDecl :=
    ⟨[], "C", .con "T" [tyvar "b"] .unknown, [.mk "m" .unknown equation [] .unknown], .unknown⟩
  { Surface.Module.empty "M" with
    decls := [.cls ⟨"C", "x", [sig], .unknown, .unknown⟩, .data data, .inst inst] }

def methodInstance : Instance :=
  ⟨⟨"$fCT", "M", .value, 0⟩, .unknown, ⟨"C", "M", .type, 0⟩, ⟨"T", "M", .type, 0⟩, ["b"], []⟩

/-- The class of such a module; `vs` are the other variables of its method. -/
def methodClass (vs : List String) (rest : Ty) : TypeClass :=
  let cls : Name := ⟨"C", "M", .type, 0⟩
  let s : Scheme := ⟨"x" :: vs, [⟨cls, .var "x"⟩], .fn (.var "x") rest⟩
  ⟨cls, .unknown, "x", [⟨⟨"m", "M", .value, 0⟩, .unknown, s, some cls⟩]⟩

/-- With `m :: x -> b -> b`, the variable `b` of the method becomes `a`. -/
theorem methods_checkedAt_of_methodModule :
    let m := methodModule (.fn (.var "b" .unknown) (.var "b" .unknown) .unknown) ["y"]
    let c := methodClass ["b"] (.fn (.var "b") (.var "b"))
    (∀ r ∈ (declared m []).2.reports, r.isError = false) ∧
    (declared m []).1.map Prod.fst = [methodInstance] ∧
    (elaborate m []).declared.globals.entity? c.name = some (.typeClass c) ∧
    ∀ x ∈ c.methods,
      let s := methodScheme c.tyvar methodInstance x.scheme
      IsMethodType c.tyvar methodInstance x.scheme s.body := by
  intro m c
  have hok : ∀ r ∈ (declared m []).2.reports, r.isError = false := by decide +kernel
  have his : (declared m []).1.map Prod.fst = [methodInstance] := by decide +kernel
  have hc : (elaborate m []).declared.globals.entity? c.name = some (.typeClass c) := by
    decide +kernel
  refine ⟨hok, his, hc, fun x hx => ?_⟩
  obtain ⟨d, hd, hinst⟩ := List.mem_map.1 (his ▸ List.mem_singleton_self methodInstance)
  have hiff := (methods_checkedAt_iff (by simp) hok).2 d hd c (by rw [hinst]; exact hc) x hx
  rw [hinst] at hiff
  have hapart : ∀ x ∈ c.methods, Apart methodInstance.tyvars x.scheme.tvs.tail := by decide
  exact hiff.2 (hapart x hx)

/-- With `m :: x -> a -> b -> b`, the variable `b` of the method becomes `a`, which is there
already: the module is accepted, with equations that do not have the type of the method. -/
theorem methods_checkedAt_wrong :
    let var (v : String) : Surface.TypeExpr := .var v .unknown
    let m := methodModule (.fn (var "a") (.fn (var "b") (var "b") .unknown) .unknown) ["y", "z"]
    let c := methodClass ["a", "b"] (.fn (.var "a") (.fn (.var "b") (.var "b")))
    (run m []).reports.length = 0 ∧
    (declared m []).1.map Prod.fst = [methodInstance] ∧
    (elaborate m []).declared.globals.entity? c.name = some (.typeClass c) ∧
    ∀ x ∈ c.methods,
      let s := methodScheme c.tyvar methodInstance x.scheme
      s.tvs = ["b", "a", "a"] ∧ ¬ IsMethodType c.tyvar methodInstance x.scheme s.body := by
  intro var m c
  refine ⟨by decide +kernel, by decide +kernel, by decide +kernel, ?_⟩
  have hs : ∀ x ∈ c.methods, x.scheme.OfMethod c.tyvar := by
    unfold Scheme.OfMethod
    decide
  have hclash : ∀ x ∈ c.methods, ¬ Apart methodInstance.tyvars x.scheme.tvs.tail := by decide
  have htvs : ∀ x ∈ c.methods,
      (methodScheme c.tyvar methodInstance x.scheme).tvs = ["b", "a", "a"] := by
    decide
  exact fun x hx => ⟨htvs x hx, fun h => hclash x hx ((isMethodType_iff (hs x hx) _).1 h)⟩

end TypeLens.Check
