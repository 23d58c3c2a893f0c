import TypeLens.Name
import TypeLens.Proofs.Lex.Words
import TypeLens.Proofs.Surface.Arities
import TypeLens.Proofs.Surface.Variables

/-!
How names that can be declared are spelled: as the tokens that stand for names are. The names that a
module introduces are the texts of its tokens, so that all of them can be declared, and no binding
has the name of a constructor.
-/

namespace TypeLens

namespace Lex

/-- An operator that is not a word of the language and does not begin like a comment. -/
structure IsOperator (s : String) : Prop where
  ne_nil : s.toList ≠ []
  chars : ∀ c ∈ s.toList, isOperatorChar c = true
  keyword : keyword? s = none
  comment : ¬ ['-', '-'] <+: s.toList

/-- What the text of a token for a name is. -/
def IsName (k : Terminal) (s : String) : Prop :=
  match k with
  | .conid => isConid s = true
  | .varid => isVarid s = true
  | .operator => IsOperator s
  | _ => True

theorem isName_of_not_mem {k : Terminal} (s : String) (h : k ∉ [.conid, .varid, .operator]) :
    IsName k s := by
  cases k with
  | conid | varid | operator => exact absurd (by decide) h
  | _ => trivial

/-- A word that is no keyword has the kind of its class. -/
theorem keyword?_of_wordKind {k : Terminal} {text : List Char} (h : wordKind k text = .token k)
    (hk : k ∈ [.varid, .operator]) : keyword? (String.ofList text) = none := by
  cases hkeyword : keyword? (String.ofList text) with
  | none => rfl
  | some k' =>
    rw [wordKind, hkeyword, Option.getD_some] at h
    obtain rfl := PieceKind.token.inj h
    refine absurd ?_ (kind_ne_of_keyword? hkeyword)
    exact (by decide : ∀ k ∈ [Terminal.varid, .operator], k ∈ [Terminal.itemSep, .blockOpen,
      .blockClose, .newline, .conid, .varid, .operator, .int, .string]) _ hk

theorem isName_of_class? {c : Char} {word : List Char} {inRun : Char → Bool}
    {kind : List Char → PieceKind} {k : Terminal} (hc : class? c = some (inRun, kind))
    (hword : ∀ d ∈ word, inRun d = true) (hcomment : ¬ ['-', '-'] <+: c :: word)
    (hk : kind (c :: word) = .token k) : IsName k (String.ofList (c :: word)) := by
  have hkeyword {k' : Terminal} (h : keyword? (String.ofList (c :: word)) = some k') :
      IsName k' (String.ofList (c :: word)) := by
    refine isName_of_not_mem _ fun hmem => kind_ne_of_keyword? h ?_
    exact (by decide : ∀ k ∈ [Terminal.conid, .varid, .operator], k ∈ [Terminal.itemSep, .blockOpen,
      .blockClose, .newline, .conid, .varid, .operator, .int, .string]) k' hmem
  cases class_of_class? hc with
  | blank => cases hk
  | conid hupper =>
    cases hk
    show isConid _ = true
    rw [isConid, String.toList_ofList]
    exact Bool.and_eq_true_iff.2 ⟨hupper, List.all_eq_true.2 hword⟩
  | word hlower =>
    rcases kind_of_wordKind hk with rfl | h
    · have hisWord : isWord (String.ofList (c :: word)) = true := by
        rw [isWord, String.toList_ofList]
        exact Bool.and_eq_true_iff.2 ⟨hlower, List.all_eq_true.2 hword⟩
      show isVarid _ = true
      rw [isVarid, hisWord, keyword?_of_wordKind hk (by decide)]
      rfl
    · exact hkeyword h
  | int =>
    cases hk
    trivial
  | operator hoperator =>
    rcases kind_of_wordKind hk with rfl | h
    · exact {
        ne_nil := by rw [String.toList_ofList]; exact List.cons_ne_nil c word
        chars := by
          rw [String.toList_ofList]
          exact List.forall_mem_cons.2 ⟨hoperator, hword⟩
        keyword := keyword?_of_wordKind hk (by decide)
        comment := by rwa [String.toList_ofList] }
    · exact hkeyword h

theorem IsPiece.isName {p : Piece} {r : List Char} {k : Terminal} (h : IsPiece p r)
    (hk : p.kind = .token k) : IsName k (String.ofList p.text) := by
  cases h with
  | comment => cases hk
  | newline | string =>
    cases hk
    trivial
  | run hc hword hr hcomment => exact isName_of_class? hc hword hcomment hk
  | bracket hc =>
    cases hk
    unfold bracket? at hc
    split at hc <;> cases hc <;> trivial

theorem isWord_of_isVarid {s : String} (h : isVarid s = true) : isWord s = true := by
  rw [isVarid, Bool.and_eq_true] at h
  exact h.1

theorem isConid_of_isVarid {s : String} (h : isVarid s = true) : isConid s = false := by
  obtain ⟨c, word, hcons, hlower, -⟩ := exists_cons_of_isWord (isWord_of_isVarid h)
  have hupper : isUpper c = false := by
    rcases hlower with hlower | rfl
    · exact isUpper_of_isLower hlower
    · decide
  simp only [isConid, hcons, hupper, Bool.false_and]

theorem IsOperator.isConid {s : String} (h : IsOperator s) : isConid s = false := by
  obtain ⟨c, word, hcons⟩ := List.exists_cons_of_ne_nil h.ne_nil
  have hupper := isUpper_of_isOperatorChar (h.chars c (hcons ▸ List.mem_cons_self))
  simp only [Lex.isConid, hcons, hupper, Bool.false_and]

theorem isName_of_mem_lex {source : List Char} {t : Token} (h : t ∈ (lex source).tokens) :
    IsName t.kind t.text := by
  obtain ⟨p, r, hp, hk, htext⟩ := exists_isPiece h
  rw [htext]
  exact hp.isName hk

end Lex

/-- The spellings of names that can be declared at the top of a module: constructors and types begin
with a capital letter, and only lists have another name. -/
inductive Declarable : Namespace → String → Prop
  | conid (space : Namespace) {s : String} (h : Lex.isConid s = true) : Declarable space s
  | varid {s : String} (h : Lex.isVarid s = true) : Declarable .value s
  | operator {s : String} (h : Lex.IsOperator s) : Declarable .value s
  | list (space : Namespace) : Declarable space "[]"

open Concrete

namespace Surface

/-- The texts of tokens have a property that depends on their kinds. -/
def Spelled (N : Terminal → String → Prop) (ts : List Token) : Prop := ∀ t ∈ ts, N t.kind t.text

/-- What a binding defines or a signature is for: it is a variable or an operator. -/
def IsVariable (N : Terminal → String → Prop) (s : String) : Prop := N .varid s ∨ N .operator s

theorem isConid_of_isVariable {s : String} (h : IsVariable Lex.IsName s) :
    Lex.isConid s = false := by
  rcases h with hvarid | hoperator
  · exact Lex.isConid_of_isVarid hvarid
  · exact Lex.IsOperator.isConid hoperator

variable {N : Terminal → String → Prop}

theorem spelled_append {ts us : List Token} :
    Spelled N (ts ++ us) ↔ Spelled N ts ∧ Spelled N us := List.forall_mem_append

theorem spelled_cons {t : Token} {ts : List Token} :
    Spelled N (t :: ts) ↔ N t.kind t.text ∧ Spelled N ts := List.forall_mem_cons

theorem Spelled.item {sep : Terminal} {α : Type} {s : SepBy sep α} {f : α → List Token}
    (h : Spelled N (s.yield f)) {x : α} (hx : x ∈ s.items) : Spelled N (f x) := by
  obtain ⟨hfirst, hmore⟩ := spelled_append.1 h
  rcases List.mem_cons.1 hx with rfl | hx
  · exact hfirst
  · obtain ⟨p, hp, rfl⟩ := List.mem_map.1 hx
    exact fun t ht => hmore t (List.mem_flatMap.2 ⟨p, hp, List.mem_cons_of_mem _ ht⟩)

theorem Spelled.blockItem {α : Type} {b : Block α} {f : α → List Token} (h : Spelled N (b.yield f))
    {x : α} (hx : x ∈ b.toList) : Spelled N (f x) := by
  obtain ⟨kw, opening, items, closing⟩ := b
  cases items with
  | none => cases hx
  | some s =>
    obtain ⟨-, h⟩ := spelled_cons.1 (spelled_append.1 h).1
    exact (spelled_cons.1 h).2.item hx

-- Patterns

variable {file : Option String}

mutual

theorem varids_atomicPat : ∀ p : AtomicPat, Spelled N p.yield →
    Gives (buildAtomicPat file p) fun x => ∀ y ∈ x.binders, N .varid y.1
  | .var _, h => .ok (List.forall_mem_singleton.2 (spelled_cons.1 h).1)
  | .wild _, _ | .con _, _ | .nil _ _, _ => .ok (List.forall_mem_nil _)
  | .int _, _ | .string _, _ => .skip fun _ => .ok (List.forall_mem_nil _)
  | .paren _ p _, h =>
    (varids_fullPat p (spelled_cons.1 (spelled_append.1 h).1).2).bind fun _ hx => .ok hx

theorem varids_atomicPats : ∀ ps : AtomicPats, Spelled N ps.yield →
    Gives (buildAtomicPats file ps) fun xs => ∀ y ∈ Pat.bindersList xs, N .varid y.1
  | .nil, _ => .ok (List.forall_mem_nil _)
  | .cons p ps, h =>
    (varids_atomicPat p (spelled_append.1 h).1).bind fun _ hx =>
      (varids_atomicPats ps (spelled_append.1 h).2).bind fun _ hxs =>
        .ok (List.forall_mem_append.2 ⟨hx, hxs⟩)

theorem varids_appliedPat : ∀ p : AppliedPat, Spelled N p.yield →
    Gives (buildAppliedPat file p) fun x => ∀ y ∈ x.binders, N .varid y.1
  | .atom p, h => varids_atomicPat p h
  | .app _ p ps, h =>
    (varids_atomicPat p (spelled_cons.1 (spelled_append.1 h).1).2).bind fun _ hx =>
      (varids_atomicPats ps (spelled_append.1 h).2).bind fun _ hxs =>
        .ok (List.forall_mem_append.2 ⟨hx, hxs⟩)

theorem varids_fullPat : ∀ p : FullPat, Spelled N p.yield →
    Gives (buildFullPat file p) fun x => ∀ y ∈ x.binders, N .varid y.1
  | .plain p, h => varids_appliedPat p h
  | .infixed l op r, h => by
    obtain ⟨hl, hr⟩ := spelled_append.1 h
    unfold buildFullPat
    split
    · refine (varids_appliedPat l hl).bind fun _ hx =>
        (varids_fullPat r (spelled_cons.1 hr).2).bind fun _ hy => .ok ?_
      exact List.forall_mem_append.2 ⟨hx, List.forall_mem_append.2 ⟨hy, List.forall_mem_nil _⟩⟩
    · exact .misuse _ _

end

theorem varids_patLhs (p : PatLhs) (h : Spelled N p.yield) :
    Gives (buildPatLhs file p) fun x => ∀ y ∈ x.binders, N .varid y.1 := by
  cases p with
  | con n args => exact (varids_atomicPats args (spelled_cons.1 h).2).bind fun _ hx => .ok hx
  | paren l p r =>
    exact (varids_fullPat p (spelled_cons.1 (spelled_append.1 h).1).2).bind fun _ hx => .ok hx

-- Declarations

/-- The names that a declaration introduces are texts of tokens: a type, a class or a constructor has
the name of one, and all else is a variable or an operator. -/
def Decl.Named (N : Terminal → String → Prop) : Decl → Prop
  | .data d => N .conid d.name ∧ ∀ c ∈ d.cons, N .conid c.name
  | .cls c => N .conid c.name ∧ ∀ n ∈ c.sigs.flatMap (·.names), IsVariable N n.1
  | .prim p => ∀ n ∈ p.sig.names, IsVariable N n.1
  | .bind b => ∀ y ∈ b.binders, IsVariable N y.1
  | .sig _ | .fixity _ | .inst _ => True

theorem Decl.Named.introduced {d : Decl} (h : d.Named N) {k : Namespace × String}
    (hk : k ∈ d.introduced) : N .conid k.2 ∨ k.1 = .value ∧ IsVariable N k.2 := by
  cases d with
  | data d =>
    rcases List.mem_cons.1 hk with rfl | hk
    · exact .inl h.1
    · obtain ⟨c, hc, rfl⟩ := List.mem_map.1 hk
      exact .inl (h.2 c hc)
  | cls c =>
    rcases List.mem_cons.1 hk with rfl | hk
    · exact .inl h.1
    · obtain ⟨n, hn, rfl⟩ := List.mem_map.1 hk
      exact .inr ⟨rfl, h.2 n hn⟩
  | prim | bind =>
    obtain ⟨n, hn, rfl⟩ := List.mem_map.1 hk
    exact .inr ⟨rfl, h n hn⟩
  | sig | fixity | inst => cases hk

theorem isVariable_binderName (b : Binder) (h : Spelled N b.yield) :
    IsVariable N (binderName b) := by
  cases b with
  | var n => exact .inl (spelled_cons.1 h).1
  | op l n r => exact .inr (spelled_cons.1 (spelled_cons.1 h).2).1

theorem variables_buildSignature (s : Signature) (h : Spelled N s.yield) :
    Gives (buildSignature file s) fun sig => ∀ n ∈ sig.names, IsVariable N n.1 := by
  refine .skip fun _ => .ok (List.forall_mem_map.2 fun b hb => ?_)
  exact isVariable_binderName b ((spelled_append.1 h).1.item hb)

theorem named_buildDecl (d : Concrete.Decl) (h : Spelled N d.yield) :
    Gives (buildDecl file d) (Decl.Named N) := by
  unfold buildDecl
  cases d with
  | data kw n vs cons =>
    obtain ⟨hhead, hcons⟩ := spelled_append.1 h
    obtain ⟨-, hn⟩ := spelled_cons.1 hhead
    have hcon : ∀ c ∈ cons.elim [] fun p => p.2.items,
        Gives (buildConstructor file c) fun x => N .conid x.name := by
      intro c hc
      cases cons with
      | none => cases hc
      | some p =>
        have hyield := (spelled_cons.1 hcons).2.item hc
        exact .skip fun _ => .ok (spelled_cons.1 hyield).1
    exact (gives_mapM hcon).bind fun xs hxs => .ok ⟨(spelled_cons.1 hn).1, hxs⟩
  | signature => exact .skip fun _ => .ok trivial
  | primitive kw s =>
    exact (variables_buildSignature s (spelled_cons.1 h).2).bind fun _ hnames => .ok hnames
  | fixity =>
    refine .skip fun n => ?_
    split
    · exact .misuse _ _
    · exact .ok trivial
  | typeClass kw n v body =>
    obtain ⟨-, hhead⟩ := spelled_cons.1 h
    obtain ⟨hn, hrest⟩ := spelled_cons.1 hhead
    obtain ⟨-, hbody⟩ := spelled_cons.1 hrest
    have hsig : ∀ s ∈ body.elim [] Block.toList,
        Gives (buildSignature file s) fun x => ∀ n ∈ x.names, IsVariable N n.1 := by
      intro s hs
      cases body with
      | none => cases hs
      | some b => exact variables_buildSignature s (hbody.blockItem hs)
    refine (gives_mapM hsig).bind fun sigs hsigs => .ok ⟨hn, fun n hn => ?_⟩
    obtain ⟨sig, hsig, hn⟩ := List.mem_flatMap.1 hn
    exact hsigs sig hsig n hn
  | inst =>
    refine .skip fun q => ?_
    split
    · exact .skip fun _ => .ok trivial
    · exact .misuse _ _
  | equation e =>
    obtain ⟨b, ps, eq, e⟩ := e
    have hname : IsVariable N (binderName b) :=
      isVariable_binderName b (spelled_append.1 (spelled_append.1 h).1).1
    refine Gives.bind (P := fun f => f.name = binderName b)
      (.skip fun _ => .skip fun _ => .ok rfl) fun f hf => .ok ?_
    exact List.forall_mem_singleton.2 (hf ▸ hname)
  | pattern e =>
    obtain ⟨lhs, eq, e⟩ := e
    refine Gives.bind (P := fun p => ∀ y ∈ p.pat.binders, N .varid y.1)
      ((varids_patLhs lhs (spelled_append.1 h).1).bind fun _ hx => .skip fun _ => .ok hx)
      fun p hp => .ok fun y hy => .inl (hp y hy)

/-- Equations that are joined introduce what the first one does. -/
theorem Decl.named_join? {a b c : Decl} (h : a.join? b = some c) (ha : a.Named N) : c.Named N := by
  obtain ⟨f, g, k, rfl, rfl, hk, rfl⟩ := join?_eq_some_iff.1 h
  obtain ⟨-, rfl⟩ := FunBind.join?_eq_some_iff.1 hk
  cases f
  exact ha

variable {w : Int} {source : String} {m : Module}

/-- The names that a module introduces are texts of the tokens of which it is read. Nothing is asked
of other tokens. -/
theorem named_of_parseModule (h : parseModule w file source = .ok m)
    (hlex : ∀ t ∈ (Lex.lex source.toList).tokens, N t.kind t.text)
    (hother : ∀ k s, k ∉ [Terminal.conid, .varid, .operator] → N k s) :
    ∀ d ∈ m.decls, d.Named N := by
  have hspelled : Spelled N (Layout.process w (Lex.lex source.toList).tokens) := by
    intro t ht
    cases hsynthetic : Layout.isSynthetic t.kind with
    | false => exact hlex t (mem_lex_of_mem_process ht hsynthetic)
    | true =>
      refine hother _ _ fun hmem => ?_
      have hnot : ∀ k ∈ [Terminal.conid, .varid, .operator], Layout.isSynthetic k = false := by
        decide
      rw [hnot _ hmem] at hsynthetic
      cases hsynthetic
  exact forall_decls_of_parseModule
    (fun d hd => named_buildDecl d fun t ht => hspelled t (hd t ht))
    (fun _ _ _ hjoin ha _ => Decl.named_join? hjoin ha) h

/-- The names that a module introduces are spelled as those of constructors and of variables are. -/
theorem spelled_of_parseModule (h : parseModule w file source = .ok m) :
    ∀ d ∈ m.decls, d.Named Lex.IsName :=
  named_of_parseModule h (fun _ ht => Lex.isName_of_mem_lex ht) fun _ s => Lex.isName_of_not_mem s

/-- The names that a module introduces can be declared if it is read from a text. -/
theorem declarable_of_parseModule (h : parseModule w file source = .ok m) :
    ∀ k ∈ m.introduced, Declarable k.1 k.2 := by
  rintro ⟨space, occ⟩ hk
  obtain ⟨d, hd, hk⟩ := List.mem_flatMap.1 hk
  rcases (spelled_of_parseModule h d hd).introduced hk with hconid | ⟨rfl, hvarid | hoperator⟩
  · exact .conid space hconid
  · exact .varid hvarid
  · exact .operator hoperator

/-- The names that a module introduces have no characters that are not in its text. -/
theorem mem_source_of_introduced (h : parseModule w file source = .ok m) {k : Namespace × String}
    (hk : k ∈ m.introduced) {c : Char} (hc : c ∈ k.2.toList) : c ∈ source.toList := by
  let N (k : Terminal) (s : String) : Prop :=
    k ∈ [.conid, .varid, .operator] → ∀ c ∈ s.toList, c ∈ source.toList
  have hnamed : ∀ d ∈ m.decls, d.Named N :=
    named_of_parseModule h (fun t ht _ c hc => Lex.mem_of_mem_lex ht hc) fun k s hk h => absurd h hk
  obtain ⟨d, hd, hk⟩ := List.mem_flatMap.1 hk
  rcases (hnamed d hd).introduced hk with hconid | ⟨-, hvarid | hoperator⟩
  · exact hconid (by decide) c hc
  · exact hvarid (by decide) c hc
  · exact hoperator (by decide) c hc

end Surface

end TypeLens
