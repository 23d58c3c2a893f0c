import Mathlib.Data.List.Nodup
import Mathlib.Logic.Relation
import TypeLens.Proofs.Lowering.Counting
import TypeLens.Proofs.Typed.Reading

/-!
Equations and their core terms. Evaluation of the term that equations are lowered to ends at the
right-hand side of the first equation whose patterns match, with the variables of the patterns bound
to the parts of the arguments that they match, or else at `patError`.
-/

namespace TypeLens

namespace Core

/-- The values that patterns are matched with. -/
inductive Value
  | con (con : Name) (args : List Value)
  | lit (value : Literal)

def Value.args : Value → List Value
  | .con _ vs => vs
  | .lit _ => []

/-- Constructors have all their arguments. -/
inductive Value.Saturated (c : Context) : Value → Prop
  | con {k : Name} {vs : List Value}
      (hlen : ∀ d, c.entity? k = some (.dataCon d) → vs.length = d.argTypes.length)
      (hargs : ∀ v ∈ vs, v.Saturated c) : Saturated c (.con k vs)
  | lit (l : Literal) : Saturated c (.lit l)

/-- What variables stand for. -/
abbrev Valuation := Name → Option Value

def Valuation.put (ρ : Valuation) (n : Name) (v : Value) : Valuation :=
  fun x => if x = n then some v else ρ x

def Valuation.putAll (ρ : Valuation) (ps : List (Name × Value)) : Valuation :=
  ps.foldr (fun p ρ => ρ.put p.1 p.2) ρ

-- Evaluation

def Term.value? (ρ : Valuation) : Term → Option Value
  | .var n _ => ρ n
  | .lit l => some (.lit l)
  | _ => none

def Alt.con : Alt → AltCon
  | .mk k _ _ => k

def Alt.binders : Alt → List Binder
  | .mk _ bs _ => bs

def Alt.rhs : Alt → Term
  | .mk _ _ t => t

/-- An alternative for values with one constructor, or for one literal. -/
def AltCon.isFor : AltCon → Value → Bool
  | .data k, .con k' _ => k == k'
  | .lit l, .lit l' => l == l'
  | _, _ => false

/-- The alternative for a value, or else the default. -/
def Alt.select? (v : Value) (as : List Alt) : Option Alt :=
  (as.find? (·.con.isFor v)).or (as.find? (·.con == .default))

/-- A term with the values of its free variables. -/
structure Closure where
  values : Valuation
  term : Term

/-- A case on a value goes on with an alternative, whose binders stand for the arguments of the
value; a definition of a variable as a value goes on with its body. -/
def Closure.next? : Closure → Option Closure
  | ⟨ρ, .caseOf s b _ as⟩ => do
    let v ← s.value? ρ
    let a ← Alt.select? v as
    return ⟨(ρ.put b.name v).putAll ((a.binders.map (·.name)).zip v.args), a.rhs⟩
  | ⟨ρ, .letIn (.mk [.mk b s] false) t⟩ => do
    let v ← s.value? ρ
    return ⟨ρ.put b.name v, t⟩
  | _ => none

/-- Evaluation of the one leads to the other. -/
abbrev Evaluates : Closure → Closure → Prop := Relation.ReflTransGen fun a b => a.next? = some b

end Core

-- Matching

namespace Typed

open TypeLens.Core (Value)

mutual

/-- The variables of a pattern with the parts of a value that they match, if the pattern matches. -/
def Pat.match? : Pat → Value → Option (List (Name × Value))
  | .var i _, v => some [(i.name, v)]
  | .wild _ _, _ => some []
  | .lit l _, .lit l' => if l = l' then some [] else none
  | .lit _ _, .con _ _ => none
  | .con k _ ps _ _, .con k' vs => if k = k' then Pat.matchAll? ps vs else none
  | .con _ _ _ _ _, .lit _ => none
  | .par p _, v => p.match? v

/-- Patterns with values, from left to right. An equation may have fewer patterns than there are
arguments. -/
def Pat.matchAll? : List Pat → List Value → Option (List (Name × Value))
  | p :: ps, v :: vs => do
    let θ ← p.match? v
    let θ' ← Pat.matchAll? ps vs
    return θ ++ θ'
  | _, _ => some []

end

/-- The first equation whose patterns match, and what its variables stand for. -/
def Match.select? (vs : List Value) : List Match → Option (Match × List (Name × Value))
  | [] => none
  | m :: ms =>
    match Pat.matchAll? m.pats vs with
    | some θ => some (m, θ)
    | none => select? vs ms

/-- The variables of equations. -/
def Match.variables (ms : List Match) : List Name := ms.flatMap (Pat.namesOf ·.pats)

/-- The patterns of equations. -/
def Match.patterns (ms : List Match) : List Node := ms.flatMap (Pat.nodesOf ·.pats)

end Typed

namespace Core

open Typed (Pat Match)

variable {c : Context} {ρ ρ' ρ'' : Valuation}

@[simp] theorem put_self (n : Name) (v : Value) : ρ.put n v n = some v := if_pos rfl

theorem put_of_ne {x n : Name} (h : x ≠ n) (v : Value) : ρ.put n v x = ρ x := if_neg h

theorem putAll_of_not_mem {ps : List (Name × Value)} {x : Name} (h : x ∉ ps.map (·.1)) :
    ρ.putAll ps x = ρ x := by
  induction ps with
  | nil => rfl
  | cons p ps ih =>
    rw [List.map_cons, List.mem_cons, not_or] at h
    exact (put_of_ne h.1 _).trans (ih h.2)

/-- Names that are given values have them. -/
theorem map_putAll_zip {ns : List Name} (hns : ns.Nodup) {vs : List Value}
    (hlen : ns.length = vs.length) : ns.map (ρ.putAll (ns.zip vs)) = vs.map some := by
  induction ns generalizing vs with
  | nil =>
    obtain rfl := List.length_eq_zero_iff.1 hlen.symm
    rfl
  | cons n ns ih =>
    obtain ⟨hn, hns⟩ := List.nodup_cons.1 hns
    cases vs with
    | nil => cases hlen
    | cons v vs =>
      have hrest : ns.map (ρ.putAll ((n :: ns).zip (v :: vs))) = ns.map (ρ.putAll (ns.zip vs)) :=
        List.map_congr_left fun x hx => put_of_ne (ne_of_mem_of_not_mem hx hn) v
      rw [List.map_cons, hrest, ih hns (Nat.succ.inj hlen), List.map_cons]
      exact congrArg (· :: _) (put_self n v)

/-- All constructors of patterns have all their arguments. -/
def Saturated (c : Context) (ns : List Typed.Node) : Prop :=
  ∀ k ts ps t l, .pat (.con k ts ps t l) ∈ ns →
    ∃ d, c.entity? k = some (.dataCon d) ∧ ps.length = d.argTypes.length

/-- Evaluation from `t` ends at `success` if there is a match, with the values that it gives, and at
`failure` if not. Only names in `xs` change their values. -/
structure Arrives (ρ : Valuation) (xs : List Name) (t success failure : Term)
    (θ : Option (List (Name × Value))) (ρ' : Valuation) : Prop where
  evaluates : Evaluates ⟨ρ, t⟩ ⟨ρ', if θ.isSome then success else failure⟩
  same : ∀ x, x ∉ xs → ρ' x = ρ x
  bound : ∀ b ∈ θ.getD [], ρ' b.1 = some b.2

namespace Arrives

variable {xs ys zs : List Name} {t inner success failure : Term} {θ : List (Name × Value)}
  {θ' : Option (List (Name × Value))}

theorem matched (ρ : Valuation) (xs : List Name) (t failure : Term) :
    Arrives ρ xs t t failure (some []) ρ :=
  ⟨.refl, fun _ _ => rfl, fun _ h => absurd h List.not_mem_nil⟩

theorem failed (ρ : Valuation) (xs : List Name) (success failure : Term) :
    Arrives ρ xs failure success failure none ρ :=
  ⟨.refl, fun _ _ => rfl, fun _ h => absurd h List.not_mem_nil⟩

/-- Evaluation takes a step first. -/
theorem head (hstep : (⟨ρ, t⟩ : Closure).next? = some ⟨ρ', inner⟩) (hsame : ∀ x, x ∉ xs → ρ' x = ρ x)
    (h : Arrives ρ' xs inner success failure θ' ρ'') : Arrives ρ xs t success failure θ' ρ'' :=
  ⟨.head hstep h.evaluates, fun x hx => (h.same x hx).trans (hsame x hx), h.bound⟩

theorem mono (h : Arrives ρ xs t success failure θ' ρ') (hxs : xs ⊆ ys) :
    Arrives ρ ys t success failure θ' ρ' :=
  ⟨h.evaluates, fun x hx => h.same x fun hx' => hx (hxs hx'), h.bound⟩

/-- The first of two matches fails. -/
theorem fail (h : Arrives ρ xs t inner failure none ρ') :
    Arrives ρ xs t success failure none ρ' :=
  ⟨h.evaluates, h.same, h.bound⟩

/-- A match after another one. -/
theorem comp (h : Arrives ρ xs t inner failure (some θ) ρ')
    (h' : Arrives ρ' ys inner success failure θ' ρ'') (hθ : ∀ b ∈ θ, b.1 ∉ ys)
    (hxs : xs ⊆ zs) (hys : ys ⊆ zs) :
    Arrives ρ zs t success failure (θ'.map (θ ++ ·)) ρ'' where
  evaluates := by
    rw [Option.isSome_map]
    exact h.evaluates.trans h'.evaluates
  same x hx := by
    rw [h'.same x fun hx' => hx (hys hx'), h.same x fun hx' => hx (hxs hx')]
  bound b hb := by
    cases θ' with
    | none => cases hb
    | some θ' =>
      rcases List.mem_append.1 hb with hb | hb
      · rw [h'.same b.1 (hθ b hb)]
        exact h.bound b hb
      · exact h'.bound b hb

end Arrives

theorem run_dataCon_eq_ok {k : Name} {n : Nat} {r : DataCon × Nat}
    (h : (Lower.dataCon c k).run n = .ok r) :
    c.entity? k = some (.dataCon r.1) ∧ r.2 = n := by
  unfold Lower.dataCon at h
  split at h
  · next d hd =>
    cases h
    exact ⟨hd, rfl⟩
  · cases h

theorem madeUpNames_subset {n n' m m' : Nat} (hn : n ≤ n') (hm : m' ≤ m) :
    madeUpNames c n' m' ⊆ madeUpNames c n m := by
  intro x hx
  obtain ⟨k, hlt, hle, rfl⟩ := mem_madeUpNames.1 hx
  exact mem_madeUpNames.2 ⟨k, by omega, by omega, rfl⟩

theorem not_mem_madeUpNames {n n' m m' : Nat} (hm : m ≤ n') {x : Name}
    (hx : x ∈ madeUpNames c n m) : x ∉ madeUpNames c n' m' := by
  intro hx'
  obtain ⟨k, -, hk, rfl⟩ := mem_madeUpNames.1 hx
  obtain ⟨l, hl, -, heq⟩ := mem_madeUpNames.1 hx'
  have hkl := madeUp_injective heq
  omega

theorem nodup_madeUpNames (n m : Nat) : (madeUpNames c n m).Nodup :=
  List.Nodup.map (fun _ _ h => madeUp_injective h) List.nodup_range'

-- A match binds variables of its patterns

mutual

theorem mem_names_of_match? : ∀ {p : Pat} {v : Value} {θ : List (Name × Value)},
    p.match? v = some θ → ∀ b ∈ θ, b.1 ∈ p.names
  | .var i _, v, θ, h, b, hb => by
    unfold Pat.match? at h
    cases h
    obtain rfl := List.mem_singleton.1 hb
    exact List.mem_singleton_self _
  | .wild _ _, v, θ, h, b, hb => by
    unfold Pat.match? at h
    cases h
    cases hb
  | .lit l _, .lit l', θ, h, b, hb => by
    unfold Pat.match? at h
    split at h
    · cases h
      cases hb
    · cases h
  | .lit _ _, .con _ _, θ, h, b, hb => by
    unfold Pat.match? at h
    cases h
  | .con k _ ps _ _, .con k' vs, θ, h, b, hb => by
    unfold Pat.match? at h
    split at h
    · exact mem_namesOf_of_matchAll? h b hb
    · cases h
  | .con _ _ _ _ _, .lit _, θ, h, b, hb => by
    unfold Pat.match? at h
    cases h
  | .par p _, v, θ, h, b, hb => by
    unfold Pat.match? at h
    exact mem_names_of_match? h b hb

theorem mem_namesOf_of_matchAll? : ∀ {ps : List Pat} {vs : List Value} {θ : List (Name × Value)},
    Pat.matchAll? ps vs = some θ → ∀ b ∈ θ, b.1 ∈ Pat.namesOf ps
  | [], vs, θ, h, b, hb => by
    unfold Pat.matchAll? at h
    cases h
    cases hb
  | _ :: _, [], θ, h, b, hb => by
    unfold Pat.matchAll? at h
    cases h
    cases hb
  | p :: ps, v :: vs, θ, h, b, hb => by
    unfold Pat.matchAll? at h
    obtain ⟨θ₁, h₁, h⟩ := Option.bind_eq_some_iff.1 h
    obtain ⟨θ₂, h₂, h⟩ := Option.bind_eq_some_iff.1 h
    cases h
    rw [Pat.namesOf, List.mem_append]
    rcases List.mem_append.1 hb with hb | hb
    · exact .inl (mem_names_of_match? h₁ b hb)
    · exact .inr (mem_namesOf_of_matchAll? h₂ b hb)

end

theorem Saturated.mono {ns ms : List Typed.Node} (h : Saturated c ns) (hs : ms ⊆ ns) :
    Saturated c ms := fun k ts ps t l hp => h k ts ps t l (hs hp)

mutual

/-- If constructors have all their arguments, a match binds all variables of a pattern. -/
theorem names_subset_of_match? : ∀ {p : Pat} {v : Value}, Saturated c p.nodes → v.Saturated c →
    ∀ {θ : List (Name × Value)}, p.match? v = some θ → p.names ⊆ θ.map (·.1)
  | .var i _, v, _, _, θ, h => by
    unfold Pat.match? at h
    cases h
    exact List.Subset.refl _
  | .wild _ _, _, _, _, _, _ => List.nil_subset _
  | .lit _ _, _, _, _, _, _ => List.nil_subset _
  | .con k ts ps t l, .con k' vs, hp, hv, θ, h => by
    unfold Pat.match? at h
    rw [Pat.nodes] at hp
    split at h
    · next hk =>
      subst hk
      obtain ⟨d, hd, hlen⟩ := hp k ts ps t l (List.mem_cons_self ..)
      cases hv with
      | con hlen' hargs =>
        exact namesOf_subset_of_matchAll? (hp.mono (List.subset_cons_self ..)) hargs
          (Nat.le_of_eq (hlen.trans (hlen' d hd).symm)) h
    · cases h
  | .con _ _ _ _ _, .lit _, _, _, θ, h => by
    unfold Pat.match? at h
    cases h
  | .par p _, v, hp, hv, θ, h => by
    unfold Pat.match? at h
    rw [Pat.nodes] at hp
    exact names_subset_of_match? (p := p) (hp.mono (List.subset_cons_self ..)) hv h

theorem namesOf_subset_of_matchAll? : ∀ {ps : List Pat} {vs : List Value},
    Saturated c (Pat.nodesOf ps) → (∀ v ∈ vs, v.Saturated c) → ps.length ≤ vs.length →
      ∀ {θ : List (Name × Value)}, Pat.matchAll? ps vs = some θ → Pat.namesOf ps ⊆ θ.map (·.1)
  | [], _, _, _, _, _, _ => List.nil_subset _
  | p :: ps, v :: vs, hps, hvs, hlen, θ, h => by
    unfold Pat.matchAll? at h
    rw [Pat.nodesOf] at hps
    obtain ⟨hv, hvs⟩ := List.forall_mem_cons.1 hvs
    obtain ⟨θ₁, h₁, h⟩ := Option.bind_eq_some_iff.1 h
    obtain ⟨θ₂, h₂, h⟩ := Option.bind_eq_some_iff.1 h
    cases h
    have hp := names_subset_of_match? (hps.mono (List.subset_append_left ..)) hv h₁
    have hrest := namesOf_subset_of_matchAll? (hps.mono (List.subset_append_right ..)) hvs
      (Nat.le_of_succ_le_succ hlen) h₂
    rw [Pat.namesOf, List.map_append]
    exact List.append_subset.2 ⟨List.subset_append_of_subset_left _ hp,
      List.subset_append_of_subset_right _ hrest⟩

end

-- Patterns are tried from left to right

/-- A case takes the alternative for its value. -/
theorem arrives_alt {b b' : Binder} {v : Value} (hv : ρ b.name = some v) {u : Ty} {as : List Alt}
    {a : Alt} (ha : Alt.select? v as = some a) {xs : List Name} (hb' : b'.name ∈ xs)
    (hbinders : a.binders.map (·.name) ⊆ xs) {success failure : Term}
    {θ : Option (List (Name × Value))}
    (h : Arrives ((ρ.put b'.name v).putAll ((a.binders.map (·.name)).zip v.args)) xs a.rhs success
      failure θ ρ') :
    Arrives ρ xs (.caseOf b.ref b' u as) success failure θ ρ' := by
  refine h.head (by simp [Closure.next?, Binder.ref, Term.value?, hv, ha]) fun x hx => ?_
  rw [putAll_of_not_mem, put_of_ne]
  · exact fun h => hx (h ▸ hb')
  · intro hmem
    obtain ⟨p, hp, rfl⟩ := List.mem_map.1 hmem
    exact hx (hbinders (List.of_mem_zip hp).1)

/-- A case on a value that its alternative is not for fails. -/
theorem arrives_default {b b' : Binder} {v : Value} (hv : ρ b.name = some v) {u : Ty} {k : AltCon}
    (hk : k.isFor v = false) (hdefault : k ≠ .default) {xs : List Name} (hb' : b'.name ∈ xs)
    {fields : List Binder} {inner success failure : Term} :
    ∃ ρ', Arrives ρ xs (.caseOf b.ref b' u [.mk k fields inner, .mk .default [] failure]) success
      failure none ρ' := by
  have hselect : Alt.select? v [.mk k fields inner, .mk .default [] failure] =
      some (.mk .default [] failure) := by
    have hnot : AltCon.isFor .default v = false := by cases v <;> rfl
    simp [Alt.select?, Alt.con, hk, hnot, hdefault]
  exact ⟨_, arrives_alt hv hselect hb' (List.nil_subset _) (.failed ..)⟩

mutual

theorem arrives_matchPat {b : Binder} {success failure : Term} : ∀ {p : Pat}, p.names.Nodup →
    ∀ {n : Nat} {r : Term × Nat}, (Lower.matchPat c b success failure p).run n = .ok r →
      (∀ x ∈ p.names, x ∉ madeUpNames c n r.2) → ∀ {v : Value}, v.Saturated c →
        ∀ {ρ : Valuation}, ρ b.name = some v →
          ∃ ρ', Arrives ρ (p.names ++ madeUpNames c n r.2) r.1 success failure (p.match? v) ρ'
  | .wild _ _, _, n, r, h, _, v, _, ρ, _ => by
    unfold Lower.matchPat at h
    rw [run_pure_eq_ok h, Pat.match?]
    exact ⟨ρ, .matched ..⟩
  | .par p _, hnodup, n, r, h, hfresh, v, hv, ρ, hρ => by
    unfold Lower.matchPat at h
    rw [Pat.match?]
    exact arrives_matchPat (p := p) hnodup h hfresh hv hρ
  | .var i _, _, n, r, h, _, v, _, ρ, hρ => by
    unfold Lower.matchPat at h
    rw [run_pure_eq_ok h, Pat.match?, Pat.names]
    have hstep : (⟨ρ, .letIn (.single ⟨i.name, i.scheme.body⟩ b.ref) success⟩ : Closure).next? =
        some ⟨ρ.put i.name v, success⟩ := by
      simp [Closure.next?, Bind.single, Binder.ref, Term.value?, hρ]
    refine ⟨ρ.put i.name v, .single hstep, fun x hx => ?_, fun q hq => ?_⟩
    · exact put_of_ne (fun hxi => hx (List.mem_append_left _ (List.mem_singleton.2 hxi))) v
    · obtain rfl := List.mem_singleton.1 hq
      exact put_self ..
  | .lit l loc, _, n, r, h, _, v, _, ρ, hρ => by
    unfold Lower.matchPat at h
    obtain ⟨b', hb', h⟩ := run_bind_eq_ok.1 h
    obtain ⟨u, hu, h⟩ := run_bind_eq_ok.1 h
    obtain rfl := run_freshBinder hb'
    have hcount := counts_typeOf success _ u hu
    cases h
    dsimp only at hcount ⊢
    have hmade : madeUp c (n + 1) ∈ Pat.names (.lit l loc) ++ madeUpNames c n u.2 :=
      List.mem_append_right _ (mem_madeUpNames.2 ⟨n + 1, by omega, hcount, rfl⟩)
    cases v with
    | con k vs =>
      rw [Pat.match?]
      refine arrives_default (k := .lit l) hρ rfl nofun ?_
      exact hmade
    | lit l' =>
      rw [Pat.match?]
      by_cases hl : l = l'
      · subst hl
        rw [if_pos rfl]
        refine ⟨_, arrives_alt (a := .mk (.lit l) [] success) hρ ?_ hmade (List.nil_subset _)
          (.matched ..)⟩
        simp [Alt.select?, Alt.con, AltCon.isFor]
      · rw [if_neg hl]
        refine arrives_default (k := .lit l) hρ (by simp [AltCon.isFor, hl]) nofun ?_
        exact hmade
  | .con k ts ps u l, hnodup, n, r, h, hfresh, v, hv, ρ, hρ => by
    unfold Lower.matchPat at h
    rw [Pat.names] at hnodup hfresh ⊢
    obtain ⟨d, hd, h⟩ := run_bind_eq_ok.1 h
    obtain ⟨fields, hfields, h⟩ := run_bind_eq_ok.1 h
    obtain ⟨inner, hinner, h⟩ := run_bind_eq_ok.1 h
    obtain ⟨b', hb', h⟩ := run_bind_eq_ok.1 h
    obtain ⟨t, ht, h⟩ := run_bind_eq_ok.1 h
    obtain ⟨hentity, hcount⟩ := run_dataCon_eq_ok hd
    obtain ⟨hnames, hcount'⟩ := names_freshBinders hfields
    have hle := counts_matchPats success failure fields.1 ps fields.2 inner hinner
    obtain rfl := run_freshBinder hb'
    have hle' := counts_typeOf success _ t ht
    cases h
    dsimp only at hle' hfresh ⊢
    have hmade : madeUp c (inner.2 + 1) ∈ Pat.namesOf ps ++ madeUpNames c n t.2 :=
      List.mem_append_right _ (mem_madeUpNames.2 ⟨inner.2 + 1, by omega, hle', rfl⟩)
    cases v with
    | lit l' =>
      rw [Pat.match?]
      refine arrives_default (k := .data k) hρ rfl nofun ?_
      exact hmade
    | con k' vs =>
      rw [Pat.match?]
      by_cases hk : k = k'
      · subst hk
        rw [if_pos rfl]
        cases hv with
        | con hlen hargs =>
          have hfieldNames : madeUpNames c d.2 fields.2 ⊆ madeUpNames c n t.2 :=
            madeUpNames_subset (by omega) (by omega)
          have hinnerNames : madeUpNames c fields.2 inner.2 ⊆ madeUpNames c n t.2 :=
            madeUpNames_subset (by omega) (by omega)
          have hlength : (fields.1.map (·.name)).length = vs.length := by
            rw [hnames, length_madeUpNames, hcount', List.length_map, hlen _ hentity]
            omega
          have hvalues := map_putAll_zip (ρ := ρ.put (madeUp c (inner.2 + 1)) (.con k vs))
            (hnames ▸ nodup_madeUpNames _ _) hlength
          rw [List.map_map] at hvalues
          obtain ⟨ρ', hρ'⟩ := arrives_matchPats hnodup hinner
            (fun x hx => ⟨fun hmem => hfresh x hx (hinnerNames hmem),
              fun hmem => hfresh x hx (hfieldNames (hnames ▸ hmem))⟩)
            (fun x hx => not_mem_madeUpNames (Nat.le_refl _) (hnames ▸ hx)) hargs hvalues
          refine ⟨ρ', arrives_alt (a := .mk (.data k) fields.1 inner.1) hρ ?_ hmade ?_
            (hρ'.mono ?_)⟩
          · simp [Alt.select?, Alt.con, AltCon.isFor]
          · rw [Alt.binders, hnames]
            exact List.subset_append_of_subset_right _ hfieldNames
          · exact List.append_subset.2 ⟨List.subset_append_left ..,
              List.subset_append_of_subset_right _ hinnerNames⟩
      · rw [if_neg hk]
        refine arrives_default (k := .data k) hρ (by simp [AltCon.isFor, hk]) nofun ?_
        exact hmade

theorem arrives_matchPats {success failure : Term} : ∀ {bs : List Binder} {ps : List Pat},
    (Pat.namesOf ps).Nodup → ∀ {n : Nat} {r : Term × Nat},
      (Lower.matchPats c success failure bs ps).run n = .ok r →
        (∀ x ∈ Pat.namesOf ps, x ∉ madeUpNames c n r.2 ∧ x ∉ bs.map (·.name)) →
          (∀ x ∈ bs.map (·.name), x ∉ madeUpNames c n r.2) →
            ∀ {vs : List Value}, (∀ v ∈ vs, v.Saturated c) → ∀ {ρ : Valuation},
              bs.map (fun b => ρ b.name) = vs.map some →
                ∃ ρ', Arrives ρ (Pat.namesOf ps ++ madeUpNames c n r.2) r.1 success failure
                  (Pat.matchAll? ps vs) ρ'
  | bs, [], _, n, r, h, _, _, vs, _, ρ, _ => by
    have hr : r.1 = success := by
      cases bs <;>
      · unfold Lower.matchPats at h
        exact run_pure_eq_ok h
    rw [hr, Pat.matchAll?]
    exact ⟨ρ, .matched ..⟩
    simp
  | [], _ :: _, _, n, r, h, _, _, vs, _, ρ, hρ => by
    obtain rfl : vs = [] := by simpa using hρ.symm
    unfold Lower.matchPats at h
    rw [run_pure_eq_ok h, Pat.matchAll?]
    exact ⟨ρ, .matched ..⟩
    simp
  | b :: bs, p :: ps, hnodup, n, r, h, hfresh, hbs, [], _, ρ, hρ => by cases hρ
  | b :: bs, p :: ps, hnodup, n, r, h, hfresh, hbs, v :: vs, hvs, ρ, hρ => by
    unfold Lower.matchPats at h
    obtain ⟨inner, hinner, h⟩ := run_bind_eq_ok.1 h
    have hle := counts_matchPats success failure bs ps n inner hinner
    have hle' := counts_matchPat b inner.1 failure p inner.2 r h
    have hfirst : madeUpNames c inner.2 r.2 ⊆ madeUpNames c n r.2 :=
      madeUpNames_subset hle (Nat.le_refl _)
    have hrest : madeUpNames c n inner.2 ⊆ madeUpNames c n r.2 :=
      madeUpNames_subset (Nat.le_refl _) hle'
    rw [Pat.namesOf] at hnodup hfresh ⊢
    rw [List.map_cons, List.map_cons] at hρ
    obtain ⟨hv, hρ⟩ := List.cons.inj hρ
    obtain ⟨hsat, hvs⟩ := List.forall_mem_cons.1 hvs
    obtain ⟨hp, hps, hdisjoint⟩ := List.nodup_append.1 hnodup
    obtain ⟨ρ₁, h₁⟩ := arrives_matchPat hp h
      (fun x hx hmade => (hfresh x (List.mem_append_left _ hx)).1 (hfirst hmade)) hsat hv
    have hmatch : Pat.matchAll? (p :: ps) (v :: vs) =
        (p.match? v).bind fun θ => (Pat.matchAll? ps vs).map (θ ++ ·) := by
      rw [Pat.matchAll?]
      cases p.match? v with
      | none => rfl
      | some θ => cases Pat.matchAll? ps vs <;> rfl
    rw [hmatch]
    cases hθ : p.match? v with
    | none =>
      rw [hθ] at h₁
      refine ⟨ρ₁, h₁.fail.mono ?_⟩
      exact List.append_subset.2 ⟨fun x hx => by simp [hx], fun x hx => by simp [hfirst hx]⟩
    | some θ =>
      rw [hθ] at h₁
      have hkeep : bs.map (fun b => ρ₁ b.name) = vs.map some := by
        rw [← hρ]
        refine List.map_congr_left fun b' hb' => h₁.same _ fun hmem => ?_
        have hname : b'.name ∈ (b :: bs).map (·.name) :=
          List.mem_cons_of_mem _ (List.mem_map_of_mem hb')
        rcases List.mem_append.1 hmem with hmem | hmem
        · exact (hfresh _ (List.mem_append_left _ hmem)).2 hname
        · exact hbs _ hname (hfirst hmem)
      obtain ⟨ρ₂, h₂⟩ := arrives_matchPats hps hinner
        (fun x hx => ⟨fun hmade => (hfresh x (List.mem_append_right _ hx)).1 (hrest hmade),
          fun hmem => (hfresh x (List.mem_append_right _ hx)).2 (List.mem_cons_of_mem _ hmem)⟩)
        (fun x hx hmade => hbs x (List.mem_cons_of_mem _ hx) (hrest hmade)) hvs hkeep
      refine ⟨ρ₂, h₁.comp h₂ (fun q hq hmem => ?_) ?_ ?_⟩
      · have hq' := mem_names_of_match? hθ q hq
        rcases List.mem_append.1 hmem with hmem | hmem
        · exact hdisjoint _ hq' _ hmem rfl
        · exact (hfresh _ (List.mem_append_left _ hq')).1 (hrest hmem)
      · exact List.append_subset.2 ⟨fun x hx => by simp [hx], fun x hx => by simp [hfirst hx]⟩
      · exact List.append_subset.2 ⟨fun x hx => by simp [hx], fun x hx => by simp [hrest hx]⟩

end

-- Equations are tried from first to last

/-- The term of the right-hand side that is chosen, in the scope of the variables of its patterns,
or else the term for the failure of all equations. -/
def Chosen (c : Context) (failure : Term) (vs : List Value) (a : Closure) :
    Option (Match × List (Name × Value)) → Prop
  | some (m, θ) =>
    (∃ n r, (Lower.expr c m.rhs).run n = .ok r ∧ r.1 = a.term) ∧
      (∀ b ∈ θ, a.values b.1 = some b.2) ∧
      (m.pats.length ≤ vs.length → Pat.namesOf m.pats ⊆ θ.map (·.1))
  | none => a.term = failure

theorem evaluates_rows {failure : Term} {bs : List Binder} {vs : List Value}
    (hvs : ∀ v ∈ vs, v.Saturated c) {ms : List Match} (hsat : Saturated c (Match.patterns ms))
    (hnodup : (Match.variables ms).Nodup) {n : Nat} {r : Term × Nat}
    (hrun : (Lower.rows c bs failure ms).run n = .ok r)
    (hfresh : ∀ x ∈ Match.variables ms, x ∉ madeUpNames c n r.2 ∧ x ∉ bs.map (·.name))
    (hbs : ∀ x ∈ bs.map (·.name), x ∉ madeUpNames c n r.2)
    (hρ : bs.map (fun b => ρ b.name) = vs.map some) :
    ∃ a, Evaluates ⟨ρ, r.1⟩ a ∧ Chosen c failure vs a (Match.select? vs ms) ∧
      ∀ x, x ∉ Match.variables ms → x ∉ madeUpNames c n r.2 → a.values x = ρ x := by
  induction ms generalizing n r ρ with
  | nil =>
    unfold Lower.rows at hrun
    exact ⟨_, .refl, run_pure_eq_ok hrun, fun _ _ _ => rfl⟩
  | cons m ms ih =>
    obtain ⟨ps, e, l⟩ := m
    unfold Lower.rows at hrun
    obtain ⟨next, hnext, hrun⟩ := run_bind_eq_ok.1 hrun
    obtain ⟨success, hsuccess, hrun⟩ := run_bind_eq_ok.1 hrun
    have hle := counts_rows bs failure ms n next hnext
    have hle' := counts_expr e next.2 success hsuccess
    have hle'' := counts_matchPats success.1 next.1 bs ps success.2 r hrun
    have hfirst : madeUpNames c success.2 r.2 ⊆ madeUpNames c n r.2 :=
      madeUpNames_subset (by omega) (Nat.le_refl _)
    have hrest : madeUpNames c n next.2 ⊆ madeUpNames c n r.2 :=
      madeUpNames_subset (Nat.le_refl _) (by omega)
    have hvariables : Match.variables (.mk ps e l :: ms) = Pat.namesOf ps ++ Match.variables ms :=
      rfl
    have hpatterns : Match.patterns (.mk ps e l :: ms) = Pat.nodesOf ps ++ Match.patterns ms := rfl
    rw [hvariables] at hnodup hfresh ⊢
    rw [hpatterns] at hsat
    obtain ⟨hps, hms, -⟩ := List.nodup_append.1 hnodup
    obtain ⟨ρ₁, h₁⟩ := arrives_matchPats hps hrun
      (fun x hx => ⟨fun hmem => (hfresh x (List.mem_append_left _ hx)).1 (hfirst hmem),
        (hfresh x (List.mem_append_left _ hx)).2⟩)
      (fun x hx hmem => hbs x hx (hfirst hmem)) hvs hρ
    have hsame : ∀ x, x ∉ Pat.namesOf ps → x ∉ madeUpNames c n r.2 → ρ₁ x = ρ x := by
      intro x hx hmade
      refine h₁.same x fun hmem => ?_
      rcases List.mem_append.1 hmem with hmem | hmem
      · exact hx hmem
      · exact hmade (hfirst hmem)
    rw [Match.select?, Match.pats]
    cases hmatch : Pat.matchAll? ps vs with
    | some θ =>
      rw [hmatch] at h₁
      refine ⟨_, h₁.evaluates, ⟨⟨_, _, hsuccess, rfl⟩, h₁.bound, fun hlen => ?_⟩, fun x hx => ?_⟩
      · exact namesOf_subset_of_matchAll? (hsat.mono (List.subset_append_left ..)) hvs hlen hmatch
      · exact hsame x fun hmem => hx (List.mem_append_left _ hmem)
    | none =>
      rw [hmatch] at h₁
      have hρ₁ : bs.map (fun b => ρ₁ b.name) = vs.map some := by
        rw [← hρ]
        refine List.map_congr_left fun b hb => ?_
        have hb : b.name ∈ bs.map (·.name) := List.mem_map_of_mem hb
        exact hsame _ (fun hmem => (hfresh _ (List.mem_append_left _ hmem)).2 hb) (hbs _ hb)
      obtain ⟨a, ha, hchosen, hvalues⟩ := ih (hsat.mono (List.subset_append_right ..)) hms hnext
        (fun x hx => ⟨fun hmem => (hfresh x (List.mem_append_right _ hx)).1 (hrest hmem),
          (hfresh x (List.mem_append_right _ hx)).2⟩)
        (fun x hx hmem => hbs x hx (hrest hmem)) hρ₁
      refine ⟨a, h₁.evaluates.trans ha, hchosen, fun x hx hmade => ?_⟩
      rw [hvalues x (fun hmem => hx (List.mem_append_right _ hmem)) fun hmem => hmade (hrest hmem)]
      exact hsame x (fun hmem => hx (List.mem_append_left _ hmem)) hmade

/-- The term of a group of equations evaluates to the right-hand side of the first equation whose
patterns match the arguments, where each variable of its patterns stands for what it matches; if
there is none, to `patError`. Apart from the variables of the group and the binders that were made
up, nothing changes its value. -/
theorem group_evaluates {g : Typed.MatchGroup} (hsat : Saturated c (Match.patterns g.rows))
    {bs : List Binder} {n : Nat} {r : Term × Nat}
    (hrun : (Lower.rows c bs (Lower.patError c g.resTy) g.rows).run n = .ok r)
    (hnames : (Match.variables g.rows ++ bs.map (·.name) ++ madeUpNames c n r.2).Nodup)
    {vs : List Value} (hvs : ∀ v ∈ vs, v.Saturated c) {ρ : Valuation}
    (hρ : bs.map (fun b => ρ b.name) = vs.map some) :
    ∃ a, Evaluates ⟨ρ, r.1⟩ a ∧
      Chosen c (Lower.patError c g.resTy) vs a (Match.select? vs g.rows) ∧
      ∀ x, x ∉ Match.variables g.rows → x ∉ madeUpNames c n r.2 → a.values x = ρ x := by
  obtain ⟨hnodup, -, hdisjoint⟩ := List.nodup_append.1 hnames
  obtain ⟨hvariables, -, hbinders⟩ := List.nodup_append.1 hnodup
  refine evaluates_rows hvs hsat hvariables hrun (fun x hx => ⟨fun hmem => ?_, fun hmem => ?_⟩)
    (fun x hx hmem => ?_) hρ
  · exact hdisjoint x (List.mem_append_left _ hx) x hmem rfl
  · exact hbinders x hx x hmem rfl
  · exact hdisjoint x (List.mem_append_right _ hx) x hmem rfl

/-- The constructor of `data P = P Int Int`. -/
def pairCon : DataCon where
  name := ⟨"P", "M", .value, 0⟩
  loc := .unknown
  parent := ⟨"P", "M", .type, 0⟩
  scheme := ⟨[], [], .fns [.int, .int] (.con ⟨"P", "M", .type, 0⟩)⟩
  argTypes := [.int, .int]

/-- A module with `P` only. -/
def pairContext : Context where
  module := "M"
  scope := ⟨"M", []⟩
  entity? n := if n = pairCon.name then some (.dataCon pairCon) else none

/-- The equations `P x 1 = x` and `y = 2`. -/
def pairGroup : Typed.MatchGroup :=
  let x : Typed.Ident := ⟨⟨"x", "M", .value, 1⟩, .mono .int⟩
  let y : Typed.Ident := ⟨⟨"y", "M", .value, 2⟩, .mono (.con pairCon.parent)⟩
  .mk
    [.mk [.con pairCon.name [] [.var x .unknown, .lit (.int 1) .unknown] (.con pairCon.parent)
        .unknown] (.head (.var x) .unknown) .unknown,
      .mk [.var y .unknown] (.lit (.int 2) .unknown) .unknown]
    [.con pairCon.parent] .int

/-- On `P 5 2`, the first equation binds `x` and then fails at `1`, so that the second one is
chosen. -/
theorem group_evaluates_pairGroup :
    let v : Value := .con pairCon.name [.lit (.int 5), .lit (.int 2)]
    let b : Binder := ⟨madeUp pairContext 1, .con pairCon.parent⟩
    let ρ : Valuation := Valuation.put (fun _ => none) b.name v
    ∃ r : Term × Nat,
      (Lower.rows pairContext [b] (Lower.patError pairContext pairGroup.resTy) pairGroup.rows).run 1 =
        .ok r ∧
      Saturated pairContext (Match.patterns pairGroup.rows) ∧
      (Match.variables pairGroup.rows ++ [b].map (·.name) ++ madeUpNames pairContext 1 r.2).Nodup ∧
      (∀ w ∈ [v], w.Saturated pairContext) ∧
      [b].map (fun b => ρ b.name) = [v].map some ∧
      ∃ a, Evaluates ⟨ρ, r.1⟩ a ∧
        Chosen pairContext (Lower.patError pairContext pairGroup.resTy) [v] a
          (Match.select? [v] pairGroup.rows) ∧
        ∀ x, x ∉ Match.variables pairGroup.rows → x ∉ madeUpNames pairContext 1 r.2 →
          a.values x = ρ x := by
  intro v b ρ
  have hsat : Saturated pairContext (Match.patterns pairGroup.rows) := by
    intro k ts ps t l h
    simp only [Match.patterns, pairGroup, Typed.MatchGroup.rows, List.flatMap_cons,
      List.flatMap_nil, Match.pats, Pat.nodesOf, Pat.nodes] at h
    obtain ⟨rfl, -, rfl, -⟩ : k = pairCon.name ∧ _ ∧ ps = _ ∧ _ := by simpa using h
    exact ⟨pairCon, rfl, rfl⟩
  have hv : ∀ w ∈ [v], w.Saturated pairContext := by
    intro w hw
    obtain rfl := List.mem_singleton.1 hw
    refine .con (fun d hd => ?_) fun u hu => ?_
    · cases hd
      rfl
    · rcases List.mem_pair.1 hu with rfl | rfl
      · exact .lit _
      · exact .lit _
  have hρ : [b].map (fun b => ρ b.name) = [v].map some := rfl
  have hnames (m : Nat) (hm : m = 5) : (Match.variables pairGroup.rows ++ [b].map (·.name) ++
      madeUpNames pairContext 1 m).Nodup := by
    subst hm
    decide +kernel
  refine ⟨_, rfl, hsat, hnames _ rfl, hv, hρ, ?_⟩
  exact group_evaluates hsat rfl (hnames _ rfl) hv hρ

end Core

end TypeLens
