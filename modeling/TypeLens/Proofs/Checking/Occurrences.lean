import TypeLens.Proofs.Checking.LocalBindings
import TypeLens.Proofs.Surface.Groups
import TypeLens.Proofs.Surface.Variables
import TypeLens.Proofs.Typed.Uses

/-!
What the variables of a typed tree refer to. An expression is checked in the surroundings of its
time, and read in the end with all binders around it. Where a name means the same in both, a
variable refers to the innermost binder of its name.
-/

namespace TypeLens

namespace Check

open Typed (Bind Head Ident Use innermost?)

-- Actions that report no error

def State.Accepted (s : State) : Prop := ∀ r ∈ s.reports, r.isError = false

/-- An action takes back no reports, and what it returns has a property if no error is reported. -/
structure Grants {α : Type} (act : CheckM α) (Q : α → Prop) : Prop where
  reports : ∀ s, s.reports ⊆ (act.run s).2.reports
  grants : ∀ s, (act.run s).2.Accepted → Q (act.run s).1

namespace Grants

variable {α β : Type} {act : CheckM α} {P Q : α → Prop} {R : β → Prop}

theorem pure {a : α} (h : Q a) : Grants (Pure.pure a) Q :=
  ⟨fun _ => List.Subset.refl _, fun _ _ => h⟩

theorem bind {f : α → CheckM β} (h : Grants act P)
    (hf : ∀ a, Grants (f a) fun b => P a → R b) : Grants (act >>= f) R where
  reports s := List.Subset.trans (h.reports s) ((hf _).reports _)
  grants s hs := (hf _).grants _ hs (h.grants s fun r hr => hs r ((hf _).reports _ hr))

theorem weaken (h : Grants act P) (hP : ∀ a, P a → Q a) : Grants act Q :=
  ⟨h.reports, fun s hs => hP _ (h.grants s hs)⟩

theorem skip {f : α → CheckM β} (h : Grants act P) (hf : ∀ a, Grants (f a) R) :
    Grants (act >>= f) R := h.bind fun a => (hf a).weaken fun _ hb _ => hb

theorem of_returns (h : Grants act P) (hr : Returns act Q) : Grants act fun a => P a ∧ Q a :=
  ⟨h.reports, fun s hs => ⟨h.grants s hs, hr s⟩⟩

theorem assuming {p : Prop} (h : Grants act fun _ => True) (hp : p → Grants act P) :
    Grants act fun a => p → P a := ⟨h.reports, fun s hs hyp => (hp hyp).grants s hs⟩

theorem of_evolves {N : Inferred → Prop} (h : Evolves N act) : Grants act fun _ => True :=
  ⟨fun s => (h s).later.reports.subset, fun _ _ => trivial⟩

theorem of_quiet (h : Quiet act) : Grants act fun _ => True := .of_evolves h.silent

theorem bind_of {f : α → CheckM β} (h : Grants act P) (hr : Returns act Q)
    (hf : ∀ a, Q a → Grants (f a) fun b => P a → R b) : Grants (act >>= f) R where
  reports s := List.Subset.trans (h.reports s) ((hf _ (hr s)).reports _)
  grants s hs := by
    have hrest := hf _ (hr s)
    exact hrest.grants _ hs (h.grants s fun r hreport => hs r (hrest.reports _ hreport))

theorem get : Grants (MonadState.get : CheckM State) fun _ => True :=
  ⟨fun _ => List.Subset.refl _, fun _ _ => trivial⟩

theorem mapM {f : α → CheckM β} {as : List α} {S : α → β → Prop}
    (h : ∀ a ∈ as, Grants (f a) (S a)) :
    Grants (as.mapM f) fun bs => ∀ b ∈ bs, ∃ a ∈ as, S a b := by
  induction as with
  | nil => exact .pure (by simp)
  | cons a as ih =>
    rw [List.mapM_cons]
    refine .bind (h a (List.mem_cons_self ..)) fun b => ?_
    refine .bind (ih fun a' ha' => h a' (List.mem_cons_of_mem _ ha')) fun bs => .pure ?_
    intro hbs hb
    refine List.forall_mem_cons.2 ⟨⟨a, List.mem_cons_self .., hb⟩, fun b' hb' => ?_⟩
    obtain ⟨a', ha', h⟩ := hbs b' hb'
    exact ⟨a', List.mem_cons_of_mem _ ha', h⟩

theorem forM {f : α → CheckM PUnit} {as : List α} (h : ∀ a ∈ as, Grants (f a) fun _ => True) :
    Grants (as.forM f) fun _ => True := by
  induction as with
  | nil => exact .pure trivial
  | cons a as ih =>
    exact .skip (h a (List.mem_cons_self ..)) fun _ => ih fun a' ha' =>
      h a' (List.mem_cons_of_mem _ ha')

theorem collecting (h : Grants act P) : Grants (collecting act) fun r => P r.1 :=
  ⟨fun s => h.reports { s with wanted := [] }, fun s hs => h.grants { s with wanted := [] } hs⟩

/-- The same for actions that also know what patterns have bound. -/
theorem bindPat {act : PatM α} {f : α → PatM β} {b : Bound} {P : α × Bound → Prop}
    {R : β × Bound → Prop} (h : Grants (act.run b) P)
    (hf : ∀ r, Grants ((f r.1).run r.2) fun x => P r → R x) : Grants ((act >>= f).run b) R := by
  rw [StateT.run_bind]
  exact h.bind hf

theorem purePat {a : α} {b : Bound} {P : α × Bound → Prop} (h : P (a, b)) :
    Grants ((Pure.pure a : PatM α).run b) P := .pure h

theorem lift (h : Grants act P) (b : Bound) :
    Grants ((liftM act : PatM α).run b) fun r => P r.1 ∧ r.2 = b := by
  have hlift : Grants (act >>= fun a => Pure.pure (a, b)) fun r => P r.1 ∧ r.2 = b :=
    h.bind fun _ => .pure fun ha => ⟨ha, rfl⟩
  exact hlift

end Grants

theorem grants_report (p : Problem) (loc : Span) : Grants (report p loc) fun _ => True :=
  .of_quiet (quiet_report p loc)

theorem grants_error {p : Problem} (hp : p.severity = .error) (loc : Span) :
    Grants (report p loc) fun _ => False := by
  refine ⟨(grants_report p loc).reports, fun s hs => ?_⟩
  have hno := hs ⟨p, loc⟩ (List.mem_cons_self ..)
  rw [Report.isError, hp] at hno
  cases hno

theorem grants_reportIf {p : Problem} (hp : p.severity = .error) (c : Bool) (loc : Span) :
    Grants (reportIf c p loc) fun _ => c = false := by
  unfold reportIf
  split
  · exact (grants_error hp loc).weaken fun _ h => h.elim
  · next hc => exact .pure (Bool.eq_false_iff.2 hc)

theorem grants_note {e : Inferred} {Q : Inferred → Prop} (h : Q e) : Grants (note e) Q :=
  ⟨fun _ => List.Subset.refl _, fun _ _ => h⟩

theorem grants_rule : ActionRule fun act => Grants act fun _ => True where
  pure _ := .pure trivial
  bind h hf := h.skip hf
  freshUvar := .of_evolves (evolves_freshUvar (N := fun _ => True))
  freshUnique := .of_quiet quiet_freshUnique
  unify a b loc := .of_evolves (evolves_unify (N := fun _ => True) a b loc)
  report loc _ := grants_report _ loc

-- What names mean

/-- What a name denotes at the top level is what it denotes there in the end. -/
def Denotes (G g : Globals) (occ : String) : Prop :=
  ∀ n, resolve g .value .variable occ = .ok n → n.occ = occ ∧ G.scope.unqualified n = true ∧
    ∃ e, g.entity? n = some e ∧ e.isValue ∧
      ∀ i, e = .ident i → ∃ x, G.entity? n = some (.ident x) ∧ i.scheme = x.scheme

/-- A name means the innermost of the identifiers, or else what it denotes at the top level in the
end. -/
structure Env.Means (G : Globals) (env : Env) (ids : List Ident) (occ : String) : Prop where
  binder : env.locals.lookup occ = innermost? ids occ
  top : innermost? ids occ = none → Denotes G env.globals occ

variable {env : Env} {G : Globals} {ids new : List Ident} {bound : Locals} {occ : String}

/-- New binders hide others of their names and no more. -/
theorem Env.Means.of_extend (hnew : ∀ i, bound.lookup occ = some i → innermost? ids occ = some i)
    (h : bound.lookup occ = none → env.Means G ids occ) : (env.extend bound).Means G ids occ := by
  have hlookup : (env.extend bound).locals.lookup occ =
      (bound.lookup occ).or (env.locals.lookup occ) := List.lookup_append
  cases hi : bound.lookup occ with
  | some i =>
    rw [hi, Option.some_or] at hlookup
    refine ⟨hlookup.trans (hnew i hi).symm, fun hnone => ?_⟩
    rw [hnew i hi] at hnone
    cases hnone
  | none =>
    obtain ⟨hbinder, htop⟩ := h hi
    rw [hi, Option.none_or] at hlookup
    exact ⟨hlookup.trans hbinder, htop⟩

/-- Binders of other names are of no account. -/
theorem Env.Means.append (h : env.Means G ids occ) (hnew : innermost? new occ = none) :
    env.Means G (new ++ ids) occ := by
  have happend : innermost? (new ++ ids) occ = innermost? ids occ := by
    rw [Typed.innermost?_append, hnew, Option.none_or]
  exact ⟨h.binder.trans happend.symm, fun hnone => h.top (happend.symm.trans hnone)⟩

theorem Env.Means.extend (hnew : bound.lookup occ = innermost? new occ)
    (h : innermost? new occ = none → env.Means G ids occ) :
    (env.extend bound).Means G (new ++ ids) occ := by
  refine .of_extend (fun i hi => ?_) fun hnone => (h (hnew ▸ hnone)).append (hnew ▸ hnone)
  rw [Typed.innermost?_append, ← hnew, hi, Option.some_or]

/-- The variables of a part of the tree that is checked in `env`, as a function of the binders
around it. Each is written at one of the places in `V`, and where the names that are written there
mean what they do in `env`, each refers to what it should. -/
def Env.Explains (env : Env) (V : String × Span → Prop) (uses : List Ident → List Use) : Prop :=
  ∀ G ids, (∀ x, V x → env.Means G ids x.1) →
    ∀ u ∈ uses ids, u.Refers G ∧ V (u.ident.name.occ, u.loc)

namespace Env.Explains

variable {V V' : String × Span → Prop} {f g : List Ident → List Use}

theorem nil : env.Explains V fun _ => [] := fun _ _ _ _ h => absurd h List.not_mem_nil

theorem append (hf : env.Explains V f) (hg : env.Explains V g) :
    env.Explains V fun ids => f ids ++ g ids := fun G ids h =>
  List.forall_mem_append.2 ⟨hf G ids h, hg G ids h⟩

/-- A part that consists of others. -/
theorem of_mem {α : Type} {as : List α} {part : α → List Ident → List Use}
    (h : ∀ a ∈ as, env.Explains V (part a))
    (hf : ∀ ids, ∀ u ∈ f ids, ∃ a ∈ as, u ∈ part a ids) : env.Explains V f := by
  intro G ids hmeans u hu
  obtain ⟨a, ha, hu⟩ := hf ids u hu
  exact h a ha G ids hmeans u hu

theorem mono (h : env.Explains V f) (hV : ∀ x, V x → V' x) : env.Explains V' f := by
  intro G ids hmeans u hu
  obtain ⟨hrefers, hwritten⟩ := h G ids (fun x hx => hmeans x (hV x hx)) u hu
  exact ⟨hrefers, hV _ hwritten⟩

/-- Within new binders. -/
theorem within (h : (env.extend bound).Explains V f)
    (hnew : ∀ occ, bound.lookup occ = innermost? new occ) :
    env.Explains V fun ids => f (new ++ ids) := fun G ids hmeans =>
  h G (new ++ ids) fun x hx => .extend (hnew x.1) fun _ => hmeans x hx

end Env.Explains

-- Names

section

variable {V : String × Span → Prop}

theorem returns_occurrence (h : Head) (occ : String) (loc : Span) :
    Returns (occurrence h occ loc) fun r => ∀ ids, r.1.uses ids = h.uses ids loc := by
  unfold occurrence
  dsimp only
  split
  · exact fun _ _ => rfl
  · exact .skip fun _ => .skip fun _ => .skip fun _ => fun _ _ => rfl

theorem grants_occurrence (h : Head) (occ : String) (loc : Span) :
    Grants (occurrence h occ loc) fun r => ∀ ids, r.1.uses ids = h.uses ids loc := by
  have hact : Grants (occurrence h occ loc) fun _ => True := by
    unfold occurrence
    dsimp only
    split
    · exact .skip (grants_note (Q := fun _ => True) trivial) fun _ => .pure trivial
    · refine .skip (grants_rule.freshFor _) fun ts => ?_
      refine .skip (.of_quiet (quiet_wantedFor _ _ _)) fun goals => ?_
      exact .skip (.of_quiet (quiet_wanted (· ++ goals))) fun _ => grants_note trivial
  exact (hact.of_returns (returns_occurrence h occ loc)).weaken fun _ h => h.2

theorem grants_unknownName (env : Env) (occ : String) (loc : Span) :
    Grants (unknownName env occ loc) fun _ => True :=
  .skip grants_rule.freshUvar fun t => .skip (grants_rule.newLocal env occ t) fun _ =>
    grants_note trivial

/-- A name that is reported as an error. -/
theorem grants_unresolved {p : Problem} (hp : p.severity = .error) (env : Env) (occ : String)
    (loc : Span) {Q : Inferred → Prop} : Grants (do report p loc; unknownName env occ loc) Q :=
  (grants_error hp loc).bind fun _ => (grants_unknownName env occ loc).weaken fun _ _ h => h.elim

/-- A variable refers to what its name means. -/
theorem grants_inferVar (env : Env) {occ : String} {loc : Span} (hV : V (occ, loc)) :
    Grants (inferVar env occ loc) fun r => env.Explains V r.1.uses := by
  unfold inferVar
  split
  · next i hi =>
    refine (grants_occurrence (.var i) occ loc).weaken fun r hr G ids hmeans u hu => ?_
    rw [hr] at hu
    obtain rfl := List.mem_singleton.1 hu
    have hbinder := (hmeans _ hV).binder.symm.trans hi
    have hocc : i.name.occ = occ := Typed.occ_of_innermost? hbinder
    refine ⟨?_, hocc ▸ hV⟩
    rw [Use.Refers, hocc, hbinder]
  next hnone =>
  split
  · next p hp => exact grants_unresolved (isError_of_resolve hp) env occ loc
  next n hn =>
  have htop {G : Globals} {ids : List Ident} (h : env.Means G ids occ) :=
    h.top (h.binder.symm.trans hnone) n hn
  split
  · next d _ =>
    refine (grants_occurrence (.con n d.scheme) occ loc).weaken fun r hr G ids _ u hu => ?_
    rw [hr] at hu
    cases hu
  · next i hi =>
    refine (grants_occurrence (.var ⟨n, i.scheme⟩) occ loc).weaken fun r hr G ids hmeans u hu => ?_
    rw [hr] at hu
    obtain rfl := List.mem_singleton.1 hu
    obtain ⟨rfl, hscope, e, he, -, hident⟩ := htop (hmeans _ hV)
    refine ⟨?_, hV⟩
    rw [Use.Refers, (hmeans _ hV).binder.symm.trans hnone]
    exact ⟨hscope, hident i (Option.some.inj (he.symm.trans hi))⟩
  · next hcon hident =>
    -- Nothing is known of the name so far: but then it does not mean what it does in the end.
    refine (grants_unknownName env occ loc).weaken fun r _ G ids hmeans u hu => ?_
    obtain ⟨-, -, e, he, hvalue, -⟩ := htop (hmeans _ hV)
    cases e with
    | dataCon d => exact absurd he (hcon d)
    | ident i => exact absurd he (hident i)
    | tyCon | typeClass => cases hvalue

theorem grants_inferCon (env : Env) (occ : String) (loc : Span) :
    Grants (inferCon env occ loc) fun r => env.Explains V r.1.uses := by
  unfold inferCon
  split
  · next p hp => exact grants_unresolved (isError_of_resolve hp) env occ loc
  next n hn =>
  split
  · next d _ =>
    refine (grants_occurrence (.con n d.scheme) occ loc).weaken fun r hr G ids _ u hu => ?_
    rw [hr] at hu
    cases hu
  · exact grants_unresolved rfl env occ loc

theorem grants_inferOp (env : Env) {op : Surface.OpRef}
    (hV : isConOperator op.name = false → V (op.name, op.loc)) :
    Grants (inferOp env op) fun r => env.Explains V r.1.uses := by
  unfold inferOp
  split
  · exact grants_inferCon env op.name op.loc
  · next hcon => exact grants_inferVar env (hV (Bool.eq_false_iff.2 hcon))

-- Operators

theorem grants_inferTree (env : Env) {t : PartTree}
    (h : ∀ p ∈ t.operands, Grants p.infer fun r => env.Explains V r.1.uses)
    (hV : ∀ op ∈ t.operators, isConOperator op.name = false → V (op.name, op.loc)) :
    Grants (inferTree env t) fun r => env.Explains V r.1.uses := by
  induction t with
  | leaf p => exact h p (List.mem_singleton.2 rfl)
  | node l op r ihl ihr =>
    simp only [OpTree.operands, List.mem_append] at h
    simp only [OpTree.operators, List.mem_append, List.mem_cons] at hV
    unfold inferTree
    refine .bind (ihl (fun p hp => h p (.inl hp)) fun o ho => hV o (.inl ho)) fun l' => ?_
    refine .bind (grants_inferOp env (hV op (.inr (.inl rfl)))) fun op' => ?_
    refine .bind (ihr (fun p hp => h p (.inr hp)) fun o ho => hV o (.inr (.inr ho))) fun r' => ?_
    refine .skip grants_rule.freshUvar fun res => .skip (.of_quiet (quiet_zonk _)) fun t => ?_
    split
    · refine .skip (grants_rule.unify _ _ _) fun _ => .skip (grants_rule.unify _ _ _) fun _ => ?_
      exact grants_note fun hr hop hl => (hl.append hop).append hr
    · refine .skip (grants_rule.unify _ _ _) fun _ => ?_
      exact grants_note fun hr hop hl => (hl.append hop).append hr

theorem grants_inferRow (env : Env) {first : Part} {rest : List (Surface.OpRef × Part)}
    (hf : Grants first.infer fun r => env.Explains V r.1.uses)
    (hr : ∀ p ∈ rest, (Grants p.2.infer fun r => env.Explains V r.1.uses) ∧
      (isConOperator p.1.name = false → V (p.1.name, p.1.loc))) :
    Grants (inferRow env first rest) fun r => env.Explains V r.1.uses := by
  refine .skip (.forM fun c _ => grants_report _ _) fun _ => ?_
  refine grants_inferTree env (fun p hp => ?_) fun op hop => ?_
  · rw [OpTree.operands_resolve] at hp
    rcases List.mem_cons.1 hp with rfl | hp
    · exact hf
    · obtain ⟨q, hq, rfl⟩ := List.mem_map.1 hp
      exact (hr q hq).1
  · rw [OpTree.operators_resolve] at hop
    obtain ⟨q, hq, rfl⟩ := List.mem_map.1 hop
    exact (hr q hq).2

theorem grants_inferElems (env : Env) (elemTy : Ty) {ps : List Part}
    (h : ∀ p ∈ ps, Grants p.infer fun r => env.Explains V r.1.uses) :
    Grants (inferElems elemTy ps) fun es => ∀ e ∈ es, env.Explains V e.uses := by
  induction ps with
  | nil => exact .pure (by simp)
  | cons p ps ih =>
    refine .bind (h p (List.mem_cons_self ..)) fun e => .skip (grants_rule.unify _ _ _) fun _ => ?_
    refine .bind (ih fun q hq => h q (List.mem_cons_of_mem _ hq)) fun es => .pure fun hes he => ?_
    exact List.forall_mem_cons.2 ⟨he, hes⟩

end

-- Patterns

/-- Identifiers are bound after those that were bound before. -/
def BindsAfter (b b' : Bound) (is : List Ident) : Prop :=
  ∀ occ, b'.get? occ = (b.get? occ).or (innermost? is occ)

theorem BindsAfter.nil (b : Bound) : BindsAfter b b [] := fun _ => (Option.or_none ..).symm

theorem BindsAfter.trans {b b' b'' : Bound} {is is' : List Ident} (h : BindsAfter b b' is)
    (h' : BindsAfter b' b'' is') : BindsAfter b b'' (is ++ is') := by
  intro occ
  rw [h' occ, h occ, Typed.innermost?_append, Option.or_assoc]

theorem BindsAfter.put {b : Bound} {occ : String} {i : Ident} (hnew : b.contains occ = false)
    (hi : i.name.occ = occ) : BindsAfter b (b.put occ i) [i] := by
  intro occ'
  have hnone : b.get? occ = none := by simpa [Table.contains] using hnew
  by_cases hocc : occ = occ'
  · subst hocc
    rw [Table.get?_put_self, hnone, Option.none_or, innermost?, List.find?_singleton, hi]
    simp
  · rw [Table.get?_put_of_ne hocc, innermost?, List.find?_singleton, hi,
      beq_eq_false_iff_ne.2 hocc]
    simp

mutual

/-- Without errors, a pattern binds its variables, each once. -/
theorem grants_checkPat (env : Env) : ∀ (p : Surface.Pat) (t : Ty) (b : Bound),
    Grants ((checkPat env [] p t).run b) fun r => BindsAfter b r.2 r.1.idents
  | .var n l, t, b => by
    unfold checkPat
    have hident : Grants (patIdent env [] n t l) fun i => i.name.occ = n :=
      ((grants_rule.patIdent env [] n t l).of_returns (Q := fun i => i.name.occ = n)
        fun _ => rfl).weaken fun _ h => h.2
    refine .bindPat (P := fun r => r = (b, b)) (.pure rfl) fun r => ?_
    refine .bindPat (.lift (grants_reportIf (p := .definedTwice n) rfl _ l) r.2) fun r₁ => ?_
    refine .bindPat (.lift hident r₁.2) fun r₂ => ?_
    refine .bindPat (P := fun x => x.2 = r₂.2.put n r₂.1) (.pure rfl) fun x => .purePat ?_
    rintro hx ⟨hi, h₂⟩ ⟨hnew, h₁⟩ rfl
    rw [h₁] at h₂
    rw [h₂] at hx
    rw [hx]
    exact .put hnew hi
  | .wild l, t, b => by
    unfold checkPat
    exact .purePat (.nil b)
  | .lit v l, t, b => by
    unfold checkPat
    refine .bindPat (.lift (grants_rule.unify _ _ _) b) fun r => .purePat ?_
    rintro ⟨-, h⟩
    rw [h]
    exact .nil b
  | .par p l, t, b => by
    unfold checkPat
    exact .bindPat (grants_checkPat env p t b) fun r => .purePat fun hr => hr
  | .con n ps l, t, b => by
    unfold checkPat
    split
    · next p hp =>
      refine .bindPat (.lift (grants_error (isError_of_resolveCon hp) l) b) fun r => ?_
      refine .bindPat (grants_rule.freshPats env [] ps r.2) fun r' => .purePat ?_
      exact fun _ hr => hr.1.elim
    split
    · refine .bindPat (.lift (grants_rule.freshFor _) b) fun ts => ?_
      refine .bindPat (.lift (grants_rule.unify _ _ _) ts.2) fun r => ?_
      refine .bindPat (grants_checkPats env ps _ r.2) fun r' => .purePat ?_
      rintro hr' ⟨-, hr⟩ ⟨-, hts⟩
      rw [hr, hts] at hr'
      exact hr'
    · refine .bindPat (.lift (grants_error rfl l) b) fun r => .purePat ?_
      exact fun hr => hr.1.elim

theorem grants_checkPats (env : Env) : ∀ (ps : List Surface.Pat) (ts : List Ty) (b : Bound),
    Grants ((checkPats env [] ps ts).run b) fun r => BindsAfter b r.2 (Typed.Pat.identsOf r.1)
  | p :: ps, t :: ts, b => by
    unfold checkPats
    refine .bindPat (grants_checkPat env p t b) fun r => ?_
    exact .bindPat (grants_checkPats env ps ts r.2) fun r' => .purePat fun hr' hr => hr.trans hr'
  | [], _, b => by
    unfold checkPats
    exact .purePat (.nil b)
  | _ :: _, [], b => by
    unfold checkPats
    exact .purePat (.nil b)

end

-- Equations

/-- The variables on the right-hand side of an equation refer to what they should. -/
def Row.Explained (V : String × Span → Prop) (r : Row) : Prop :=
  ∀ env, Grants (r.rhs env) fun e => env.Explains V e.1.uses

def FunJob.Explained (V : String × Span → Prop) (j : FunJob) : Prop :=
  ∀ r ∈ j.first :: j.rest, r.Explained V

def Job.Explained (V : String × Span → Prop) : Job → Prop
  | .fn j => j.Explained V
  | .pat _ rhs _ => ∀ env, Grants (rhs env) fun e => env.Explains V e.1.uses

section

variable {V V' : String × Span → Prop}

theorem Row.Explained.mono {r : Row} (h : r.Explained V) (hV : ∀ x, V x → V' x) :
    r.Explained V' := fun env => (h env).weaken fun _ he => he.mono hV

theorem Job.Explained.mono {j : Job} (h : j.Explained V) (hV : ∀ x, V x → V' x) :
    j.Explained V' := by
  cases j with
  | fn j => exact fun r hr => (h r hr).mono hV
  | pat p rhs l => exact fun env => (h env).weaken fun _ he => he.mono hV

theorem grants_checkRow (env : Env) (argTys : List Ty) (resTy : Ty) {r : Row}
    (h : r.Explained V) : Grants (checkRow env argTys resTy r) fun m =>
      env.Explains V fun ids => m.rhs.uses (Typed.Pat.identsOf m.pats ++ ids) := by
  refine .bind (grants_checkPats env r.pats argTys []) fun ps => ?_
  refine .bind (h (env.extend ps.2)) fun e => .skip (grants_rule.unify _ _ _) fun _ => .pure ?_
  intro he hps
  have hbound : ∀ occ, ps.2.lookup occ = innermost? (Typed.Pat.identsOf ps.1) occ := by
    intro occ
    rw [lookup_eq_get?, hps occ]
    exact Option.none_or
  exact he.within hbound

theorem grants_rows (env : Env) (argTys : List Ty) (resTy : Ty) {rs : List Row}
    (h : ∀ r ∈ rs, r.Explained V) : Grants (rs.mapM (checkRow env argTys resTy)) fun ms =>
      env.Explains V (Typed.Match.usesOf ms) := by
  refine (Grants.mapM fun r hr => grants_checkRow env argTys resTy (h r hr)).weaken fun ms hms => ?_
  refine .of_mem (fun m hm => ?_) fun _ _ => Typed.mem_usesOf_rows.1
  obtain ⟨r, -, h⟩ := hms m hm
  exact h

theorem grants_checkGroup (env : Env) (expected : Ty) {first : Row} {rest : List Row}
    (h : ∀ r ∈ first :: rest, r.Explained V) :
    Grants (checkGroup env expected first rest) fun g => env.Explains V g.uses := by
  refine .skip (grants_rule.freshFor _) fun ts => .skip grants_rule.freshUvar fun t => ?_
  refine .skip (grants_rule.unify _ _ _) fun _ => ?_
  exact .bind (grants_rows env ts t h) fun ms => .pure id

-- Bindings

theorem grants_check (env : Env) (group : Bound) {j : Job} (h : j.Explained V) :
    Grants (j.check env group) fun b => env.Explains V b.uses := by
  cases j with
  | fn j =>
    have hfn (i : Ident) : Grants
        (do return Bind.fn i (← checkGroup env i.scheme.body j.first j.rest) j.loc)
        fun b => env.Explains V b.uses :=
      .bind (grants_checkGroup env _ h) fun g => .pure id
    unfold Job.check
    dsimp only
    split
    · exact hfn _
    · exact .skip grants_rule.freshUvar fun t => .skip (grants_rule.newLocal _ _ _) fun i => hfn i
  | pat p rhs l =>
    refine .bind (h env) fun e => ?_
    exact .bind (P := fun _ => True) (grants_rule.checkPat env group p e.2 []) fun r =>
      .pure fun _ he => he

end

end Check

end TypeLens
