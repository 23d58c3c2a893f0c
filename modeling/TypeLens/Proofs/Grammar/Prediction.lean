import Mathlib.Tactic.Simproc.ExistsAndEq
import TypeLens.Concrete.Token

/-!
Parsers that decide by the next token. Such a parser reads the longest front part of its input that
its language allows, or fails at the first token that no sentence of the language goes on with. For
parsers in sequence this holds if no token that could go on with the first one begins the second one.
-/

namespace TypeLens

namespace Terminal

def all : List Terminal :=
  [kwModule, kwImport, kwData, kwPrimitive, kwInfixl, kwInfixr, kwInfix, kwClass, kwWhere,
    kwInstance, kwLet, kwIn, kwIf, kwThen, kwElse, kwCase, kwOf, wildcard, equals, bar, arrow,
    fatArrow, doubleColon, backslash, conid, varid, operator, int, string, lparen, rparen, lbracket,
    rbracket, lbrace, rbrace, comma, semi, newline, itemSep, blockOpen, blockClose]

theorem mem_all (k : Terminal) : k ∈ all := by
  cases k <;> decide

instance decidableForall (p : Terminal → Prop) [DecidablePred p] : Decidable (∀ k, p k) :=
  decidable_of_iff (∀ k ∈ all, p k) ⟨fun h k => h k (mem_all k), fun h k _ => h k⟩

end Terminal

namespace Concrete

@[simp]
theorem Tok.kind_token {k : Terminal} (t : Tok k) : t.token.kind = k := rfl

instance {k : Terminal} : Inhabited (Tok k) := ⟨⟨"", .first, .first⟩⟩

theorem Parser.bind_of_ok {α β : Type} {p : Parser α} {q : α → Parser β} {a : α}
    {ts rest : List Token} (h : p ts = .ok (a, rest)) : (p >>= q) ts = q a rest := by
  show Parser.bind p q ts = q a rest
  simp only [Parser.bind, h]

theorem Parser.bind_of_error {α β : Type} {p : Parser α} {q : α → Parser β}
    {ts rest : List Token} (h : p ts = .error rest) : (p >>= q) ts = .error rest := by
  show Parser.bind p q ts = .error rest
  simp only [Parser.bind, h]

/-! ### Languages -/

/-- Trees with the tokens that each of them derives. -/
abbrev Lang (α : Type) := α → List Token → Prop

/-- The tokens that can begin a sentence, whether one can be empty, and the tokens that can go on
with a sentence. -/
structure Shape where
  first : Terminal → Bool
  null : Bool
  more : Terminal → Bool

namespace Shape

def tok (k : Terminal) : Shape := ⟨(· == k), false, fun _ => false⟩

def empty : Shape := ⟨fun _ => false, true, fun _ => false⟩

def seq (s t : Shape) : Shape where
  first k := s.first k || s.null && t.first k
  null := s.null && t.null
  more k := t.more k || t.null && s.more k

/-- Two cases, of which the next token decides for the first one if it is in `on`. -/
def or (on : Terminal → Bool) (s t : Shape) : Shape where
  first k := s.first k || t.first k
  null := t.null
  more k := s.more k || t.more k || t.null && on k

@[simp]
theorem seq_empty (s : Shape) : s.seq empty = s := by
  simp [seq, empty]

structure Le (s t : Shape) : Prop where
  first : ∀ k, s.first k = true → t.first k = true
  null : s.null = true → t.null = true
  more : ∀ k, s.more k = true → t.more k = true

/-- No token that can go on with `s` begins `t`. -/
def Apart (s t : Shape) : Prop := ∀ k, s.more k = true → t.first k = false

theorem apart_empty (s : Shape) : s.Apart empty := fun _ _ => rfl

theorem apart_of_more {s t : Shape} {k : Terminal} (h : s.more k = false)
    (ht : ∀ j, t.first j = decide (j = k)) : s.Apart t := by
  intro j hj
  rw [ht]
  refine decide_eq_false ?_
  rintro rfl
  rw [h] at hj
  cases hj

/-- What can go on with `s` can go on with `t`, which begins with a token. -/
def Within (s t : Shape) : Prop := (∀ k, s.more k = true → t.more k = true) ∧ t.null = false

/-- The first token tells `s`, which has one, from `t`. -/
def Splits (on : Terminal → Bool) (s t : Shape) : Prop :=
  (∀ k, s.first k = true → on k = true) ∧ (∀ k, t.first k = true → on k = false) ∧ s.null = false

instance (s t : Shape) : Decidable (s.Apart t) :=
  Terminal.decidableForall fun k => s.more k = true → t.first k = false

instance (s t : Shape) : Decidable (s.Within t) :=
  inferInstanceAs (Decidable ((∀ k, s.more k = true → t.more k = true) ∧ t.null = false))

instance (on : Terminal → Bool) (s t : Shape) : Decidable (Splits on s t) :=
  inferInstanceAs (Decidable ((∀ k, s.first k = true → on k = true) ∧
    (∀ k, t.first k = true → on k = false) ∧ s.null = false))

instance (s t : Shape) : Decidable (s.Le t) :=
  decidable_of_iff
    ((∀ k, s.first k = true → t.first k = true) ∧ (s.null = true → t.null = true) ∧
      ∀ k, s.more k = true → t.more k = true)
    ⟨fun h => ⟨h.1, h.2.1, h.2.2⟩, fun h => ⟨h.first, h.null, h.more⟩⟩

end Shape

namespace Lang

variable {α β : Type}

def ofYield (yield : α → List Token) : Lang α := fun a us => yield a = us

/-- Only `a`, from no tokens. -/
def single (a : α) : Lang α := fun b us => b = a ∧ us = []

def bind (G : Lang α) (H : α → Lang β) : Lang β := fun b us =>
  ∃ a vs ws, us = vs ++ ws ∧ G a vs ∧ H a b ws

def or (G H : Lang α) : Lang α := fun a us => G a us ∨ H a us

@[simp]
theorem ofYield_iff {yield : α → List Token} {a : α} {us : List Token} :
    ofYield yield a us ↔ us = yield a := eq_comm

@[simp]
theorem single_iff {a b : α} {us : List Token} : single a b us ↔ b = a ∧ us = [] := Iff.rfl

@[simp]
theorem or_iff {G H : Lang α} {a : α} {us : List Token} : G.or H a us ↔ G a us ∨ H a us := Iff.rfl

@[simp]
theorem bind_iff {G : Lang α} {H : α → Lang β} {b : β} {us : List Token} :
    G.bind H b us ↔ ∃ a vs, G a vs ∧ ∃ ws, H a b ws ∧ us = vs ++ ws := by
  constructor
  · rintro ⟨a, vs, ws, he, hv, hw⟩
    exact ⟨a, vs, hv, ws, hw, he⟩
  · rintro ⟨a, vs, hv, ws, hw, he⟩
    exact ⟨a, vs, ws, he, hv, hw⟩

/-- Some sentence begins with these tokens. -/
def Viable (G : Lang α) (us : List Token) : Prop := ∃ a vs, G a (us ++ vs)

/-- No sentence begins with `us` and the next token. -/
def Halts (G : Lang α) (us rest : List Token) : Prop := ∀ t ∈ rest.head?, ¬ G.Viable (us ++ [t])

structure HasShape (G : Lang α) (s : Shape) : Prop where
  nonempty : ∃ a us, G a us
  first : ∀ a t us, G a (t :: us) → s.first t.kind = true
  null : ∀ a, G a [] → s.null = true

theorem hasShape_ofYield {yield : α → List Token} {s : Shape} (a : α)
    (h : ∀ a, ∃ t us, yield a = t :: us ∧ s.first t.kind = true) : (ofYield yield).HasShape s where
  nonempty := ⟨a, _, rfl⟩
  first a t us hy := by
    obtain ⟨u, vs, hu, hs⟩ := h a
    obtain ⟨rfl, -⟩ := List.cons.inj (hu.symm.trans hy)
    exact hs
  null a hy := by
    obtain ⟨u, vs, hu, -⟩ := h a
    cases hu.symm.trans hy

theorem HasShape.bind {G : Lang α} {H : α → Lang β} {s t : Shape} (hg : G.HasShape s)
    (hh : ∀ a, (H a).HasShape t) : (G.bind H).HasShape (s.seq t) where
  nonempty := by
    obtain ⟨a, us, ha⟩ := hg.nonempty
    obtain ⟨b, vs, hb⟩ := (hh a).nonempty
    exact ⟨b, us ++ vs, a, us, vs, rfl, ha, hb⟩
  first := by
    rintro b t us ⟨a, vs, ws, he, ha, hb⟩
    cases vs with
    | nil =>
      subst he
      simp [Shape.seq, hg.null a ha, (hh a).first b t us hb]
    | cons v vs =>
      obtain ⟨rfl, -⟩ := List.cons.inj he
      simp [Shape.seq, hg.first a t vs ha]
  null := by
    rintro b ⟨a, vs, ws, he, ha, hb⟩
    obtain ⟨rfl, rfl⟩ := List.append_eq_nil_iff.mp he.symm
    simp [Shape.seq, hg.null a ha, (hh a).null b hb]

theorem Viable.of_append {G : Lang α} {us vs : List Token} (h : G.Viable (us ++ vs)) :
    G.Viable us := by
  obtain ⟨a, ws, hw⟩ := h
  exact ⟨a, vs ++ ws, by simpa using hw⟩

/-- The first of two sentences goes on with a token, or it ends before and the second one does. -/
theorem Viable.cases_bind {G : Lang α} {H : α → Lang β} {us : List Token} {t : Token}
    (h : (G.bind H).Viable (us ++ [t])) :
    G.Viable (us ++ [t]) ∨
      ∃ a vs ws, us = vs ++ ws ∧ G a vs ∧ (H a).Viable (ws ++ [t]) := by
  obtain ⟨b, rest, a, vs, ws, he, hv, hw⟩ := h
  rw [List.append_assoc, List.singleton_append] at he
  rcases List.append_eq_append_iff.mp he with ⟨c, rfl, hc⟩ | ⟨c, rfl, rfl⟩
  · cases c with
    | nil =>
      obtain rfl : ws = t :: rest := hc.symm
      exact .inr ⟨a, us, [], by simp, by simpa using hv, b, rest, by simpa using hw⟩
    | cons u c =>
      obtain ⟨rfl, -⟩ := List.cons.inj hc
      exact .inl ⟨a, c, by simpa using hv⟩
  · exact .inr ⟨a, vs, c, rfl, hv, b, rest, by simpa using hw⟩

end Lang

/-! ### Parsers of a language -/

/-- The next token is not among those that can go on with a sentence. -/
def Stops (more : Terminal → Bool) (rest : List Token) : Prop :=
  ∀ t ∈ rest.head?, more t.kind = false

theorem stops_cons {more : Terminal → Bool} {t : Token} {rest : List Token} :
    Stops more (t :: rest) ↔ more t.kind = false := by
  simp [Stops]

theorem Stops.mono {more more' : Terminal → Bool} {rest : List Token} (h : Stops more' rest)
    (hm : ∀ k, more k = true → more' k = true) : Stops more rest := by
  intro t ht
  cases hk : more t.kind with
  | false => rfl
  | true => simpa [h t ht] using hm t.kind hk

/-- On the inputs `S` the parser reads the language `G`: a sentence wherever it is one that no next
token goes on with. -/
structure Reads {α : Type} (S : List Token → Prop) (p : Parser α) (G : Lang α)
    (more : Terminal → Bool) : Prop where
  sound : ∀ {ts a rest}, S ts → p ts = .ok (a, rest) →
    ∃ us, ts = us ++ rest ∧ G a us ∧ G.Halts us rest
  complete : ∀ {us a rest}, S (us ++ rest) → G a us → Stops more rest →
    p (us ++ rest) = .ok (a, rest)
  fault : ∀ {ts rest}, S ts → p ts = .error rest →
    ∃ us, ts = us ++ rest ∧ G.Viable us ∧ G.Halts us rest

/-- The parser reads a language of the given shape, if there are fewer than `n` tokens. -/
structure Parses {α : Type} (n : Nat) (p : Parser α) (G : Lang α) (s : Shape) : Prop
    extends Reads (fun ts => ts.length < n) p G s.more where
  shape : G.HasShape s

/-- The same for input whose first token is of kind `k`. -/
def ParsesOn {α : Type} (n : Nat) (k : Option Terminal) (p : Parser α) (G : Lang α)
    (more : Terminal → Bool) : Prop :=
  Reads (fun ts => ts.length < n ∧ ts.head?.map (·.kind) = k) p G more

namespace Parses

variable {α β : Type} {n m : Nat} {p : Parser α} {q : α → Parser β} {G : Lang α} {H : α → Lang β}
  {s t : Shape}

/-- Of no input there is nothing to show but the shape. -/
theorem zero (h : G.HasShape s) : Parses 0 p G s where
  shape := h
  sound hl := absurd hl (Nat.not_lt_zero _)
  complete hl := absurd hl (Nat.not_lt_zero _)
  fault hl := absurd hl (Nat.not_lt_zero _)

theorem mono (h : Parses n p G s) (hm : m ≤ n) : Parses m p G s where
  shape := h.shape
  sound hl := h.sound (Nat.lt_of_lt_of_le hl hm)
  complete hl := h.complete (Nat.lt_of_lt_of_le hl hm)
  fault hl := h.fault (Nat.lt_of_lt_of_le hl hm)

/-- The same language, of a shape that says less. -/
theorem congr {G' : Lang α} (h : Parses n p G s) (hg : ∀ a us, G a us ↔ G' a us)
    (hs : s.Le t) : Parses n p G' t := by
  obtain rfl : G = G' := by
    funext a us
    exact propext (hg a us)
  exact {
    shape := ⟨h.shape.nonempty, fun a t us ha => hs.first _ (h.shape.first a t us ha),
      fun a ha => hs.null (h.shape.null a ha)⟩
    sound := h.sound
    complete := fun hl ha hr => h.complete hl ha (hr.mono hs.more)
    fault := h.fault }

protected theorem pure (a : α) : Parses n (pure a) (Lang.single a) .empty where
  shape := ⟨⟨a, [], rfl, rfl⟩, by simp, by simp [Shape.empty]⟩
  sound _ h := by
    obtain ⟨rfl, rfl⟩ := Prod.mk.inj (Except.ok.inj h)
    refine ⟨[], rfl, ⟨rfl, rfl⟩, ?_⟩
    rintro t - ⟨b, vs, -, hv⟩
    simp at hv
  complete _ h _ := by
    obtain ⟨rfl, rfl⟩ := h
    rfl
  fault _ h := by cases h

protected theorem tok (k : Terminal) :
    Parses n (Parser.tok k) (Lang.ofYield fun t : Tok k => [t.token]) (.tok k) where
  shape := Lang.hasShape_ofYield default fun t => ⟨t.token, [], rfl, by simp [Shape.tok]⟩
  sound {ts t rest} _ h := by
    cases ts with
    | nil => simp [Parser.tok] at h
    | cons u ts =>
      by_cases hk : u.kind = k
      · subst hk
        obtain ⟨rfl, rfl⟩ := by simpa [Parser.tok] using h
        refine ⟨[u], rfl, rfl, ?_⟩
        rintro v - ⟨b, vs, hv⟩
        simp [Lang.ofYield] at hv
      · simp [Parser.tok, hk] at h
  complete {us t rest} _ h _ := by
    subst h
    simp [Parser.tok, Tok.token]
  fault {ts rest} _ h := by
    have some : (Lang.ofYield fun t : Tok k => [t.token]).Viable [] := ⟨default, _, rfl⟩
    cases ts with
    | nil =>
      obtain rfl := by simpa [Parser.tok] using h
      exact ⟨[], rfl, some, by simp [Lang.Halts]⟩
    | cons u ts =>
      by_cases hk : u.kind = k
      · simp [Parser.tok, hk] at h
      · obtain rfl := by simpa [Parser.tok, hk] using h
        refine ⟨[], rfl, some, ?_⟩
        rintro t ht ⟨b, vs, hv⟩
        obtain rfl := by simpa using ht
        obtain ⟨rfl, -⟩ := by simpa [Lang.ofYield] using hv
        exact hk rfl

/-- Where the second language can go on the first parser stops. -/
theorem stops_of_viable (apart : s.Apart t) (hh : ∀ a, (H a).HasShape t) {a : α}
    {us rest : List Token} {u : Token} (h : (H a).Viable (us ++ [u])) :
    Stops s.more (us ++ u :: rest) := by
  obtain ⟨b, ws, hw⟩ := h
  have stops (v : Token) (vs : List Token) (hv : H a b (v :: vs)) : s.more v.kind = false := by
    refine Bool.eq_false_iff.mpr fun hm => ?_
    have := apart v.kind hm
    simp [(hh a).first b v vs hv] at this
  cases us with
  | nil => exact stops_cons.mpr (stops u ws hw)
  | cons v us => exact stops_cons.mpr (stops v _ hw)

/-- The first parser is done where the second one goes on, and the second one stops where none of
its sentences goes on: then so does no sentence of both. -/
theorem halts_bind (hp : Parses n p G s) (apart : s.Apart t) (hh : ∀ a, (H a).HasShape t) {a : α}
    {us vs rest : List Token} (hl : (us ++ vs ++ rest).length < n)
    (hr : p (us ++ vs ++ rest) = .ok (a, vs ++ rest)) (hu : G.Halts us (vs ++ rest))
    (hv : (H a).Halts vs rest) : (G.bind H).Halts (us ++ vs) rest := by
  rintro t ht hb
  obtain ⟨rest, rfl⟩ : ∃ rest', rest = t :: rest' := by
    cases rest <;> simp_all
  rcases hb.cases_bind with hg | ⟨b, xs, ys, he, hg, hw⟩
  · -- a longer sentence of the first language
    cases vs with
    | nil => exact hu t rfl (by simpa using hg)
    | cons v vs =>
      have longer : G.Viable ((us ++ [v]) ++ (vs ++ [t])) := by simpa using hg
      exact hu v rfl longer.of_append
  · have again : p (xs ++ (ys ++ t :: rest)) = .ok (b, ys ++ t :: rest) :=
      hp.complete (by simpa [he] using hl) hg (stops_of_viable apart hh hw)
    rw [← List.append_assoc, ← he, hr] at again
    obtain ⟨rfl, rfl⟩ := by simpa using again
    exact hv t rfl hw

theorem halts_bind_of_fault (hp : Parses n p G s) (apart : s.Apart t)
    (hh : ∀ a, (H a).HasShape t) {us rest : List Token} (hl : (us ++ rest).length < n)
    (hr : p (us ++ rest) = .error rest) (hu : G.Halts us rest) : (G.bind H).Halts us rest := by
  rintro t ht hb
  obtain ⟨rest, rfl⟩ : ∃ rest', rest = t :: rest' := by
    cases rest <;> simp_all
  rcases hb.cases_bind with hg | ⟨b, xs, ys, rfl, hg, hw⟩
  · exact hu t rfl hg
  · have read : p (xs ++ (ys ++ t :: rest)) = .ok (b, ys ++ t :: rest) :=
      hp.complete (by simpa using hl) hg (stops_of_viable apart hh hw)
    rw [← List.append_assoc, hr] at read
    cases read

/-- One parser after another. -/
theorem bind_of (hp : Parses n p G s) (hq : ∀ a, Parses m (q a) (H a) t)
    (hm : ∀ a us, G a us → n ≤ m + us.length) (apart : s.Apart t) :
    Parses n (p >>= q) (G.bind H) (s.seq t) := by
  have hh (a : α) : (H a).HasShape t := (hq a).shape
  have shorter {a : α} {us mid : List Token} (hl : (us ++ mid).length < n) (hg : G a us) :
      mid.length < m := by
    have := hm a us hg
    rw [List.length_append] at hl
    omega
  constructor
  case shape => exact hp.shape.bind hh
  constructor
  case sound =>
    intro ts b rest hl h
    cases hr : p ts with
    | error e => simp [Parser.bind_of_error hr] at h
    | ok r =>
      obtain ⟨a, mid⟩ := r
      rw [Parser.bind_of_ok hr] at h
      obtain ⟨us, rfl, hg, hu⟩ := hp.sound hl hr
      obtain ⟨vs, rfl, hb, hv⟩ := (hq a).sound (shorter hl hg) h
      refine ⟨us ++ vs, by simp, ⟨a, us, vs, rfl, hg, hb⟩, ?_⟩
      exact hp.halts_bind apart hh (by simpa using hl) (by simpa using hr) hu hv
  case complete =>
    intro us b rest hl h hs
    obtain ⟨a, vs, ws, rfl, hg, hb⟩ := h
    have stops : Stops s.more (ws ++ rest) := by
      cases ws with
      | nil => exact hs.mono fun k hk => by simp [Shape.seq, (hh a).null b hb, hk]
      | cons u ws =>
        have viable : (H a).Viable ([] ++ [u]) := ⟨b, ws, hb⟩
        exact stops_of_viable apart hh viable
    rw [List.append_assoc] at hl ⊢
    rw [Parser.bind_of_ok (hp.complete hl hg stops)]
    exact (hq a).complete (shorter hl hg) hb (hs.mono fun k hk => by simp [Shape.seq, hk])
  case fault =>
    intro ts rest hl h
    cases hr : p ts with
    | error e =>
      obtain rfl : e = rest := by simpa [Parser.bind_of_error hr] using h
      obtain ⟨us, rfl, ⟨a, ws, hg⟩, hu⟩ := hp.fault hl hr
      obtain ⟨b, vs, hb⟩ := (hh a).nonempty
      refine ⟨us, rfl, ⟨b, ws ++ vs, a, us ++ ws, vs, by simp, hg, hb⟩, ?_⟩
      exact hp.halts_bind_of_fault apart hh hl hr hu
    | ok r =>
      obtain ⟨a, mid⟩ := r
      rw [Parser.bind_of_ok hr] at h
      obtain ⟨us, rfl, hg, hu⟩ := hp.sound hl hr
      obtain ⟨vs, rfl, ⟨b, ws, hb⟩, hv⟩ := (hq a).fault (shorter hl hg) h
      refine ⟨us ++ vs, by simp, ⟨b, ws, a, us, vs ++ ws, by simp, hg, hb⟩, ?_⟩
      exact hp.halts_bind apart hh (by simpa using hl) (by simpa using hr) hu hv

theorem bind (hp : Parses n p G s) (apart : s.Apart t) (hq : ∀ a, Parses n (q a) (H a) t) :
    Parses n (p >>= q) (G.bind H) (s.seq t) :=
  hp.bind_of hq (fun _ _ _ => Nat.le_add_right n _) apart

theorem map (hp : Parses n p G s) (f : α → β) :
    Parses n (p >>= fun a => pure (f a)) (G.bind fun a => .single (f a)) s := by
  simpa using hp.bind s.apart_empty fun a => Parses.pure (f a)

/-- After one token or more the rest of the input is shorter. -/
theorem bind_shorter (hp : Parses n p G s) (h : s.Apart t ∧ s.null = false)
    (hq : ∀ a, Parses (n - 1) (q a) (H a) t) : Parses n (p >>= q) (G.bind H) (s.seq t) := by
  refine hp.bind_of hq ?_ h.1
  intro a us ha
  cases us with
  | nil => simpa [hp.shape.null a ha] using h.2
  | cons u us =>
    rw [List.length_cons]
    omega

theorem tok_bind (k : Terminal) {q : Tok k → Parser β} {H : Tok k → Lang β}
    (hq : ∀ a, Parses (n - 1) (q a) (H a) t) :
    Parses n (Parser.tok k >>= q)
      ((Lang.ofYield fun t : Tok k => [t.token]).bind H) ((Shape.tok k).seq t) := by
  refine (Parses.tok k).bind_shorter ⟨?_, rfl⟩ hq
  intro j hj
  cases hj

protected theorem peek {f : Option Terminal → Parser α} (hs : G.HasShape s)
    (h : ∀ k, ParsesOn n k (f k) G s.more) : Parses n (Parser.peek f) G s where
  shape := hs
  sound hl hr := (h _).sound ⟨hl, rfl⟩ hr
  complete hl hg hs := (h _).complete ⟨hl, rfl⟩ hg hs
  fault hl hr := (h _).fault ⟨hl, rfl⟩ hr

end Parses

namespace ParsesOn

variable {α : Type} {n : Nat} {p : Parser α} {G G' : Lang α} {more : Terminal → Bool} {s : Shape}
  {k : Option Terminal}

/-- A parser for those sentences that can begin where it is used. -/
theorem of_parses (h : Parses n p G' s) (hm : ∀ k, s.more k = true → more k = true)
    (sub : ∀ a us, G' a us → G a us) (sup : ∀ a t us, some t.kind = k → G a (t :: us) → G' a (t :: us))
    (null : ∀ a, G a [] → G' a [] ∨ ∃ j, k = some j ∧ more j = true) : ParsesOn n k p G more := by
  have halts {us rest : List Token} (hk : (us ++ rest).head?.map (·.kind) = k)
      (hu : G'.Halts us rest) : G.Halts us rest := by
    rintro t ht ⟨a, ws, hw⟩
    refine hu t ht ⟨a, ws, ?_⟩
    cases us with
    | nil =>
      refine sup a t ws ?_ hw
      cases rest <;> simp_all
    | cons u us => exact sup a u _ (by simpa using hk) hw
  constructor
  case sound =>
    rintro ts a rest ⟨hl, hk⟩ hr
    obtain ⟨us, rfl, hg, hu⟩ := h.sound hl hr
    exact ⟨us, rfl, sub a us hg, halts hk hu⟩
  case complete =>
    rintro us a rest ⟨hl, hk⟩ hg hs
    refine h.complete hl ?_ (hs.mono hm)
    cases us with
    | nil =>
      rcases null a hg with hn | ⟨j, rfl, hm⟩
      · exact hn
      · -- nothing is a sentence only where no token goes on
        cases rest with
        | nil => simp at hk
        | cons t rest => simp_all [stops_cons]
    | cons u us => exact sup a u us (by simpa using hk) hg
  case fault =>
    rintro ts rest ⟨hl, hk⟩ hr
    obtain ⟨us, rfl, ⟨a, ws, hg⟩, hu⟩ := h.fault hl hr
    exact ⟨us, rfl, ⟨a, ws, sub a _ hg⟩, halts hk hu⟩

/-- A parser for exactly those sentences that begin with a token of one kind. -/
theorem of_kind {k : Terminal} {t : Shape} {f : α → List Token} (hst : s.Within t)
    (h : Parses n p G' s) (hs : (Lang.ofYield f).HasShape t)
    (hG : ∀ a us, G' a us ↔ us = f a ∧ (f a).head?.map (·.kind) = some k) :
    ParsesOn n (some k) p (.ofYield f) t.more := by
  refine .of_parses h hst.1 (fun a us hg => ((hG a us).mp hg).1.symm) ?_ ?_
  · intro a t us ht hg
    exact (hG a _).mpr ⟨hg.symm, by simpa [show f a = t :: us from hg] using ht⟩
  · intro a ha
    simpa [hs.null a ha] using hst.2

/-- A parser for the sentences that begin with a token of another kind. -/
theorem of_others {j : Terminal} {t : Shape} (hst : s.Within t) (h : Parses n p G' s)
    (hs : G.HasShape t) (hk : k ≠ some j) (sub : ∀ a us, G' a us → G a us)
    (sup : ∀ a u us, u.kind ≠ j → G a (u :: us) → G' a (u :: us)) :
    ParsesOn n k p G t.more := by
  refine .of_parses h hst.1 sub ?_ ?_
  · rintro a u us rfl hg
    exact sup a u us (by simpa using hk) hg
  · intro a ha
    simpa [hs.null a ha] using hst.2

protected theorem fail (hn : s.null = false) (hs : G.HasShape s)
    (hk : ∀ j, k = some j → s.first j = false) : ParsesOn n k Parser.fail G s.more where
  sound _ hr := by cases hr
  complete := by
    rintro us a rest ⟨-, hh⟩ hg -
    cases us with
    | nil => simp [hs.null a hg] at hn
    | cons u us =>
      have := hs.first a u us hg
      simp [hk u.kind (by simpa using hh.symm)] at this
  fault := by
    rintro ts rest ⟨-, hh⟩ hr
    obtain rfl : ts = rest := Except.error.inj hr
    obtain ⟨a, us, hg⟩ := hs.nonempty
    refine ⟨[], rfl, ⟨a, us, hg⟩, ?_⟩
    rintro t ht ⟨b, ws, hw⟩
    have := hs.first b t ws hw
    rw [hk t.kind] at this
    · cases this
    · rw [← hh, Option.mem_def.mp ht]
      rfl

end ParsesOn

namespace Parses

variable {α : Type} {n : Nat} {p q : Parser α} {G H : Lang α} {s t : Shape}
  {f : Option Terminal → Parser α}

/-- The next token decides between two parsers. -/
theorem peek_if (on : Terminal → Bool) (hst : Shape.Splits on s t) (hp : Parses n p G s)
    (hq : Parses n q H t) (hf : ∀ k, f k = if k.any on then p else q) :
    Parses n (Parser.peek f) (G.or H) (Shape.or on s t) := by
  obtain ⟨hs, ht, hn⟩ := hst
  have shape : (G.or H).HasShape (Shape.or on s t) := by
    constructor
    · obtain ⟨a, us, hg⟩ := hp.shape.nonempty
      exact ⟨a, us, .inl hg⟩
    · rintro a u us (hg | hh)
      · simp [Shape.or, hp.shape.first a u us hg]
      · simp [Shape.or, hq.shape.first a u us hh]
    · rintro a (hg | hh)
      · simp [hp.shape.null a hg] at hn
      · exact hq.shape.null a hh
  refine .peek shape fun k => ?_
  rw [hf]
  split
  · rename_i hk
    obtain ⟨j, rfl, hj⟩ : ∃ j, k = some j ∧ on j = true := by cases k <;> simp_all
    refine .of_parses hp (fun k hk => by simp [Shape.or, hk]) (fun _ _ => .inl) ?_ ?_
    · rintro a u us hu (hg | hh)
      · exact hg
      · obtain rfl := Option.some.inj hu
        simp [ht _ (hq.shape.first a u us hh)] at hj
    · rintro a (hg | hh)
      · simp [hp.shape.null a hg] at hn
      · exact .inr ⟨j, rfl, by simp [Shape.or, hq.shape.null a hh, hj]⟩
  · rename_i hk
    refine .of_parses hq (fun k hk => by simp [Shape.or, hk]) (fun _ _ => .inr) ?_ ?_
    · rintro a u us rfl (hg | hh)
      · simp [hs _ (hp.shape.first a u us hg)] at hk
      · exact hh
    · rintro a (hg | hh)
      · simp [hp.shape.null a hg] at hn
      · exact .inl hh

/-- One kind of token is a case of its own. -/
theorem peek_or (k : Terminal) (hk : f (some k) = p) (ho : ∀ j, j ≠ some k → f j = q)
    (hst : Shape.Splits (· == k) s t) (hp : Parses n p G s) (hq : Parses n q H t) :
    Parses n (Parser.peek f) (G.or H) (Shape.or (· == k) s t) := by
  refine peek_if (· == k) hst hp hq fun j => ?_
  by_cases hj : j = some k
  · simp [hj, hk]
  · rw [ho j hj]
    cases j with
    | none => rfl
    | some j => simp_all

end Parses

/-! ### Items -/

namespace Shape

/-- Items, each of which begins with a token in `starts`. -/
def many (starts : Terminal → Bool) (s : Shape) : Shape where
  first := starts
  null := true
  more k := s.more k || starts k

/-- Each item begins with a token in `starts`, with which no item goes on. -/
def Repeats (starts : Terminal → Bool) (s : Shape) : Prop :=
  (∀ k, s.first k = true → starts k = true) ∧ s.Apart (.many starts s) ∧ s.null = false

instance (starts : Terminal → Bool) (s : Shape) : Decidable (Repeats starts s) :=
  inferInstanceAs (Decidable ((∀ k, s.first k = true → starts k = true) ∧
    s.Apart (.many starts s) ∧ s.null = false))

def sepBy (sep : Terminal) (s : Shape) : Shape where
  first := s.first
  null := false
  more k := s.more k || k == sep

end Shape

namespace Parses

variable {α : Type} {n fuel : Nat} {p : Parser α} {f : α → List Token} {s : Shape}
  {starts : Terminal → Bool}

theorem hasShape_many (hp : (Lang.ofYield f).HasShape s)
    (hs : ∀ k, s.first k = true → starts k = true) (hn : s.null = false) :
    (Lang.ofYield fun xs : List α => xs.flatMap f).HasShape (.many starts s) where
  nonempty := ⟨[], [], rfl⟩
  first := by
    rintro (_ | ⟨x, xs⟩) t us h
    · cases h
    · cases hx : f x with
      | nil => simp [hp.null x hx] at hn
      | cons u vs =>
        obtain ⟨rfl, -⟩ := by simpa [Lang.ofYield, hx] using h
        exact hs u.kind (hp.first x u vs hx)
  null _ _ := rfl

/-- By induction on the budget, of which each item takes one. -/
theorem manyWithin (hp : ∀ m, Parses m p (.ofYield f) s)
    (hs : ∀ k, s.first k = true → starts k = true) (hn : s.null = false)
    (apart : s.Apart (.many starts s)) (hf : n ≤ fuel) :
    Parses n (Parser.manyWithin starts p fuel) (.ofYield fun xs => xs.flatMap f)
      (.many starts s) := by
  induction fuel generalizing n with
  | zero =>
    obtain rfl := Nat.le_zero.mp hf
    exact .zero (hasShape_many (hp 0).shape hs hn)
  | succ fuel ih =>
    have rest := ih (n := n - 1) (by omega)
    unfold Parser.manyWithin
    have item := (hp n).bind_shorter ⟨apart, hn⟩ fun x => rest.map (x :: ·)
    refine .congr (.peek_if starts ⟨?_, ?_, ?_⟩ item (.pure []) fun _ => rfl) ?_ ⟨?_, ?_, ?_⟩
    · simpa [Shape.seq, hn] using hs
    · simp [Shape.empty]
    · simp [Shape.seq, hn]
    · rintro (_ | ⟨x, xs⟩) us <;> simp
    · simpa [Shape.or, Shape.seq, Shape.empty, Shape.many, hn] using hs
    · simp [Shape.many]
    · simp [Shape.or, Shape.seq, Shape.empty, Shape.many]
      grind

theorem many (h : Shape.Repeats starts s) (hp : ∀ m, Parses m p (.ofYield f) s) :
    Parses n (Parser.many starts p) (.ofYield fun xs => xs.flatMap f) (.many starts s) := by
  obtain ⟨hs, apart, hn⟩ := h
  have within (ts : List Token) :=
    manyWithin (n := ts.length + 1) hp hs hn apart (Nat.le_refl _)
  constructor
  case shape => exact hasShape_many (hp 0).shape hs hn
  constructor
  case sound => exact fun {ts} _ _ _ h => (within ts).sound (Nat.lt_succ_self _) h
  case complete =>
    exact fun {us} _ {rest} _ h hr => (within (us ++ rest)).complete (Nat.lt_succ_self _) h hr
  case fault => exact fun {ts} _ _ h => (within ts).fault (Nat.lt_succ_self _) h

/-- A budget by the length of the input. -/
theorem budgeted {G : Lang α} {p : Nat → Parser α} (hp : ∀ m, Parses m (p (8 * m)) G s) :
    Parses n (Parser.budgeted p) G s where
  shape := (hp 0).shape
  sound {ts} _ _ _ h := (hp (ts.length + 1)).sound (Nat.lt_succ_self _) h
  complete {us} _ {rest} _ h hr := (hp ((us ++ rest).length + 1)).complete (Nat.lt_succ_self _) h hr
  fault {ts} _ _ h := (hp (ts.length + 1)).fault (Nat.lt_succ_self _) h

/-- Items with a separator before each. -/
theorem separated {sep : Terminal} (h : s.more sep = false ∧ s.null = false)
    (hp : ∀ m, Parses m p (.ofYield f) s) :
    Parses n
      (Parser.many (· = sep) do
        let s ← Parser.tok sep
        let x ← p
        return (s, x))
      (.ofYield fun xs => xs.flatMap fun i : Tok sep × α => i.1.token :: f i.2)
      (.many (· = sep) ⟨(· == sep), false, s.more⟩) := by
  have apart : Shape.Apart ⟨(· == sep), false, s.more⟩ (.many (· = sep) ⟨(· == sep), false, s.more⟩) :=
    Shape.apart_of_more h.1 fun _ => rfl
  refine .many ⟨?_, apart, rfl⟩ fun m =>
    .congr (.tok_bind sep fun t => (hp _).map (t, ·)) ?_ ⟨?_, ?_, ?_⟩
  · simp
  · rintro ⟨t, x⟩ us
    simp
  · simp [Shape.seq, Shape.tok]
  · simp [Shape.seq, Shape.tok]
  · simp [Shape.seq, h.2]

theorem sepBy {sep : Terminal} (h : s.more sep = false ∧ s.null = false)
    (hp : ∀ m, Parses m p (.ofYield f) s) :
    Parses n (Parser.sepBy sep p) (.ofYield (SepBy.yield f)) (.sepBy sep s) := by
  unfold Parser.sepBy
  refine .congr ((hp n).bind (Shape.apart_of_more h.1 fun _ => rfl) fun x =>
    (separated h hp).map (SepBy.mk x)) ?_ ⟨?_, ?_, ?_⟩
  · rintro ⟨x, more⟩ us
    simp [SepBy.yield]
  · simp [Shape.seq, Shape.sepBy, h.2]
  · simp [Shape.seq, h.2]
  · simp [Shape.seq, Shape.many, Shape.sepBy]
    grind

end Parses

end Concrete

end TypeLens
