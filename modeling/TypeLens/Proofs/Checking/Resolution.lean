import TypeLens.Proofs.Checking.Coherence

/-!
What the names in declarations mean: each is the only name of its spelling in scope, or there is an
error among the reports.
-/

namespace TypeLens

namespace Scope

/-- Names stand under their own spelling. -/
def Keyed (s : Scope) : Prop :=
  ∀ space occ, ∀ x ∈ s.lookup space occ, x.name.space = space ∧ x.name.occ = occ

theorem Keyed.add {s : Scope} (hs : s.Keyed) (d : Declared) : (s.add d).Keyed := by
  intro space occ x hx
  rcases mem_lookup_add hx with hx | ⟨rfl, hspace, hocc⟩
  · exact hs space occ x hx
  · exact ⟨hspace, hocc⟩

theorem lookup_of_unqualified {s : Scope} {n : Name} (h : s.unqualified n = true) :
    (s.lookup n.space n.occ).map (·.name) = [n] := eq_of_beq h

/-- Of one spelling there is one name at most that can be written without its module. -/
theorem eq_of_unqualified {s : Scope} {n n' : Name} (h : s.unqualified n = true)
    (h' : s.unqualified n' = true) (hspace : n.space = n'.space) (hocc : n.occ = n'.occ) :
    n = n' := by
  have hn := lookup_of_unqualified h
  have hn' := lookup_of_unqualified h'
  rw [hspace, hocc, hn'] at hn
  exact (List.singleton_inj.1 hn).symm

end Scope

namespace Check

variable {m : Surface.Module} {imports : List Exports} {late : Bool} {d : Declaring}

theorem inductive_scopeKeyed : Inductive m late (·.globals.scope.Keyed) := by
  intro d d' h hd
  cases h with
  | report | inst | fixity => exact hd
  | wireIn | complete | sign | identify | bind => exact hd.add _
  | declare => exact (hd.add _).add _

theorem scopeKeyed_initial : (Declaring.initial m imports).globals.scope.Keyed :=
  initial_of_imported (J := (·.scope.Keyed)) (fun _ _ _ _ _ hg => hg.add _)
    (fun _ _ _ _ _ hg => hg) (fun _ _ hg => hg) fun _ _ _ h => absurd h List.not_mem_nil

/-- What an occurrence means can be written without its module. -/
theorem unqualified_of_resolves {g : Globals} (hg : g.scope.Keyed) {space : Namespace} {role : Role}
    {occ : String} {n : Name} (h : resolve g space role occ = .ok n) :
    n.space = space ∧ n.occ = occ ∧ g.scope.unqualified n = true := by
  unfold resolve at h
  split at h
  · cases h
  · next x hx =>
    obtain rfl := Except.ok.inj h
    obtain ⟨hspace, hocc⟩ := hg space occ x (hx ▸ List.mem_singleton_self x)
    refine ⟨hspace, hocc, ?_⟩
    rw [Scope.unqualified, hspace, hocc, hx]
    exact beq_self_eq_true _
  · cases h

theorem isError_of_arityProblem? {occ : String} {given : Nat} {e : Option Entity} {p : Problem}
    (h : Declare.arityProblem? occ given e = some p) : p.severity = .error := by
  unfold Declare.arityProblem? at h
  split at h
  · cases h
    rfl
  · split at h
    · cases h
      rfl
    · split at h <;> cases h
      rfl
  · cases h

/-- A type constructor as it is written, with so many arguments. -/
inductive Builds (g : Globals) : String → Nat → Name → Prop
  | list (n : Nat) : Builds g "[]" n Builtin.listTyCon
  | named {occ : String} {n : Nat} {c : Name}
      (hc : resolve g .type .typeConstructor occ = .ok c)
      (hn : Declare.arityProblem? occ n (g.entity? c) = none) : Builds g occ n c

/-- The instance is for the class and the type constructor that its declaration names. -/
structure Declares (g : Globals) (decl : Surface.InstanceDecl) (i : Instance) : Prop where
  cls : resolve g .type .typeClass decl.cls = .ok i.cls
  isClass : ∃ c, g.entity? i.cls = some (.typeClass c)
  tyvars : Declare.headTyvars? decl.head = some i.tyvars
  head : ∃ occ args loc, decl.head = .con occ args loc ∧ Builds g occ args.length i.head

theorem failed_of_severity {p : Problem} (h : p.severity = .error) (loc : Span) :
    Declaring.Failed { d with reports := ⟨p, loc⟩ :: d.reports } :=
  failed_cons (beq_iff_eq.2 h)

namespace Declare

/-- A name means a class, or it is reported. -/
theorem run_classOf (occ : String) (loc : Span) (d : Declaring) :
    (∃ d', (classOf occ loc).run d = (none, d') ∧ d.Reported d' ∧ d'.Failed) ∨
      ∃ n c, (classOf occ loc).run d = (some n, d) ∧ resolve d.globals .type .typeClass occ = .ok n ∧
        d.globals.entity? n = some (.typeClass c) := by
  unfold classOf
  simp only [StateT.run_bind, StateT.run_get, pure_bind]
  cases he : resolve d.globals .type .typeClass occ with
  | error e => exact .inl ⟨_, rfl, ⟨[_], rfl⟩, failed_of_severity (isError_of_resolve he) _⟩
  | ok n =>
    dsimp only
    split
    · next c hc => exact .inr ⟨n, c, rfl, rfl, hc⟩
    · exact .inl ⟨_, rfl, ⟨[_], rfl⟩, failed_cons rfl⟩

theorem length_typesOf (tyvars : Option (List String)) (ts : List Surface.TypeExpr)
    (d : Declaring) : ((typesOf tyvars ts).run d).1.length = ts.length := by
  induction ts generalizing d with
  | nil => rfl
  | cons t ts ih => exact congrArg (· + 1) (ih _)

/-- A written constructor is applied to as many arguments as it is written with. -/
theorem run_typeOf_con (tyvars : Option (List String)) (occ : String) (args : List Surface.TypeExpr)
    (loc : Span) (d : Declaring) :
    ∃ c ts d', (typeOf tyvars (.con occ args loc)).run d = (.conApp c ts, d') ∧
      ts.length = args.length ∧ d.Reported d' ∧
      (d'.Failed ∨ Builds d.globals occ args.length c) := by
  unfold typeOf
  rw [run_bind]
  have hd := (preserves_typesOf reportable_reported tyvars args d (.refl d)).1
  have hlength := length_typesOf tyvars args d
  generalize (typesOf tyvars args).run d = x at hd hlength ⊢
  obtain ⟨ts, d₁⟩ := x
  dsimp only at hlength
  have hglobals : d₁.globals = d.globals := by
    obtain ⟨rs, rfl⟩ := hd
    rfl
  split
  · next hocc => exact ⟨_, ts, d₁, rfl, hlength, hd, .inr (hocc ▸ .list _)⟩
  simp only [StateT.run_bind, StateT.run_get, pure_bind, hglobals]
  cases he : resolve d.globals .type .typeConstructor occ with
  | error e =>
    exact ⟨_, ts, _, rfl, hlength, hd.trans ⟨[_], rfl⟩,
      .inl (failed_of_severity (isError_of_resolve he) _)⟩
  | ok n =>
    dsimp only
    cases hp : arityProblem? occ ts.length (d.globals.entity? n) with
    | some p =>
      exact ⟨n, ts, _, rfl, hlength, hd.trans ⟨[_], rfl⟩,
        .inl (failed_of_severity (isError_of_arityProblem? hp) _)⟩
    | none => exact ⟨n, ts, d₁, rfl, hlength, hd, .inr (.named he (hlength ▸ hp))⟩

/-- All that a declaration of an instance can do. -/
theorem run_inst (decl : Surface.InstanceDecl) (d : Declaring) :
    (∃ d', (inst decl).run d = (none, d') ∧ d.Reported d' ∧ d'.Failed) ∨
      ∃ i d', d.Reported d' ∧ (d'.Failed ∨ Declares d.globals decl i) ∧
        i.name = instanceName d.globals.module i.cls i.head ∧
        (inst decl).run d = (some i, { d' with
          globals := d'.globals.addInstance i, exports := d'.exports.addInstance i }) := by
  rw [inst, run_bind]
  rcases run_classOf decl.cls decl.loc d with ⟨d₁, hrun, hd, hfailed⟩ | ⟨cls, c, hrun, hcls, hc⟩
  · exact .inl ⟨d₁, by rw [hrun]; rfl, hd, hfailed⟩
  rw [hrun]
  dsimp only
  cases htyvars : headTyvars? decl.head with
  | none => exact .inl ⟨_, rfl, ⟨[_], rfl⟩, failed_cons rfl⟩
  | some tyvars =>
    dsimp only
    rw [run_bind, run_bind]
    obtain ⟨occ, args, loc, hdecl⟩ : ∃ occ args loc, decl.head = .con occ args loc := by
      unfold headTyvars? at htyvars
      split at htyvars
      · next occ args loc heq => exact ⟨occ, args, loc, heq⟩
      · cases htyvars
    obtain ⟨head, ts, d₁, hrun, -, hd, hhead⟩ := run_typeOf_con none occ args loc d
    rw [hdecl, hrun]
    have hpreds : Preserves (d₁.Reported ·) (decl.context.mapM (contextPred tyvars))
        fun _ => True :=
      (Preserves.mapM fun p _ => preserves_contextPred reportable_reported tyvars p).weaken
        fun _ _ => trivial
    replace hpreds := (hpreds d₁ (.refl d₁)).1
    generalize (decl.context.mapM (contextPred tyvars)).run d₁ = x at hpreds ⊢
    obtain ⟨preds, d₂⟩ := x
    have hd₂ : d.Reported d₂ := hd.trans hpreds
    have hglobals : d₂.globals = d.globals := by
      obtain ⟨rs, rfl⟩ := hd₂
      rfl
    simp only [StateT.run_bind, StateT.run_get, pure_bind, Ty.unconApp?_conApp, Option.map_some,
      Option.getD_some]
    split
    · exact .inl ⟨_, rfl, hd₂.trans ⟨[_], rfl⟩, failed_cons rfl⟩
    · refine .inr ⟨_, d₂, hd₂, ?_, by rw [hglobals], rfl⟩
      refine hhead.imp hpreds.failed fun hbuilds => ⟨hcls, ⟨c, hc⟩, htyvars, ?_⟩
      exact ⟨occ, args, loc, hdecl, hbuilds⟩

end Declare

end Check

end TypeLens
