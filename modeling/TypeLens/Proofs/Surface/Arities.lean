import TypeLens.Proofs.Surface.Imports
import TypeLens.Proofs.Surface.Nesting

/-!
In a module that is read from a text, all equations of a function have the same number of patterns,
wherever the function is defined, and each case has an alternative.
-/

namespace TypeLens.Surface

open Concrete

/-- All equations have as many patterns as the first one. -/
def FunBind.Even (b : FunBind) : Prop := ∀ m ∈ b.equations, m.pats.length = b.arity

mutual

/-- The equations of each function in an expression have equally many patterns, and no case is
without alternatives. -/
def Expr.Neat : Expr → Prop
  | .var _ _ => True
  | .con _ _ => True
  | .lit _ _ => True
  | .app f a _ => f.Neat ∧ a.Neat
  | .row e es _ => e.Neat ∧ Operand.AllNeat es
  | .lambda _ e _ => e.Neat
  | .letIn bs e _ => Binding.AllNeat bs ∧ e.Neat
  | .ifThenElse c y n _ => c.Neat ∧ y.Neat ∧ n.Neat
  | .caseOf s as _ => s.Neat ∧ as ≠ [] ∧ Alt.AllNeat as
  | .list es _ => Expr.AllNeat es
  | .par e _ => e.Neat

def Expr.AllNeat : List Expr → Prop
  | [] => True
  | e :: es => e.Neat ∧ Expr.AllNeat es

def Operand.AllNeat : List Operand → Prop
  | [] => True
  | .mk _ e :: es => e.Neat ∧ Operand.AllNeat es

def Alt.AllNeat : List Alt → Prop
  | [] => True
  | .mk _ e _ :: as => e.Neat ∧ Alt.AllNeat as

def Match.Neat : Match → Prop
  | .mk _ e _ => e.Neat

def Match.AllNeat : List Match → Prop
  | [] => True
  | m :: ms => m.Neat ∧ Match.AllNeat ms

/-- The equations of the function and of those within them. -/
def FunBind.Neat : FunBind → Prop
  | .mk n nl m ms l => FunBind.Even (.mk n nl m ms l) ∧ m.Neat ∧ Match.AllNeat ms

def Binding.Neat : Binding → Prop
  | .fn b => b.Neat
  | .pat (.mk _ e _) => e.Neat

def Binding.AllNeat : List Binding → Prop
  | [] => True
  | b :: bs => b.Neat ∧ Binding.AllNeat bs

end

theorem Match.allNeat_append {ms ms' : List Match} :
    Match.AllNeat (ms ++ ms') ↔ Match.AllNeat ms ∧ Match.AllNeat ms' := by
  induction ms with
  | nil => simp [Match.AllNeat]
  | cons m ms ih => rw [List.cons_append, Match.AllNeat, Match.AllNeat, ih, and_assoc]

theorem Binding.allNeat_iff {bs : List Binding} : Binding.AllNeat bs ↔ ∀ b ∈ bs, b.Neat := by
  induction bs with
  | nil => simp [Binding.AllNeat]
  | cons b bs ih => rw [Binding.AllNeat, List.forall_mem_cons, ih]

-- Joined equations

/-- What neighbours have in common, what is joined of them has, too. -/
theorem forall_joinNeighbours {α : Type} {join? : α → α → Option α} {P : α → Prop}
    (hjoin : ∀ a b c, join? a b = some c → P a → P b → P c) {xs : List α} (h : ∀ x ∈ xs, P x) :
    ∀ x ∈ joinNeighbours join? xs, P x := by
  have hfrom : ∀ (ys : List α) (x : α), P x → (∀ y ∈ ys, P y) →
      ∀ z ∈ joinFrom join? x ys, P z := by
    intro ys
    induction ys with
    | nil => exact fun x hx _ => List.forall_mem_singleton.2 hx
    | cons y ys ih =>
      intro x hx hys
      obtain ⟨hy, hys⟩ := List.forall_mem_cons.1 hys
      rw [joinFrom]
      split
      · next z hz => exact ih z (hjoin x y z hz hx hy) hys
      · exact List.forall_mem_cons.2 ⟨hx, ih y hy hys⟩
  cases xs with
  | nil => exact h
  | cons x xs =>
    obtain ⟨hx, hxs⟩ := List.forall_mem_cons.1 h
    exact hfrom xs x hx hxs

theorem FunBind.even_join? {a b c : FunBind} (h : a.join? b = some c) (ha : a.Even)
    (hb : b.Even) : c.Even := by
  obtain ⟨⟨-, -, harity⟩, rfl⟩ := join?_eq_some_iff.1 h
  refine List.forall_mem_cons.2 ⟨rfl, List.forall_mem_append.2 ⟨fun m hm => ?_, fun m hm => ?_⟩⟩
  · exact ha m (List.mem_of_mem_tail hm)
  · exact (hb m hm).trans harity.symm

theorem FunBind.neat_join? {a b c : FunBind} (h : a.join? b = some c) (ha : a.Neat)
    (hb : b.Neat) : c.Neat := by
  obtain ⟨n, nl, m, ms, l⟩ := a
  obtain ⟨n', nl', m', ms', l'⟩ := b
  obtain ⟨heven, hm, hms⟩ := ha
  obtain ⟨heven', hm', hms'⟩ := hb
  have hjoined := even_join? h heven heven'
  obtain ⟨-, rfl⟩ := join?_eq_some_iff.1 h
  exact ⟨hjoined, hm, Match.allNeat_append.2 ⟨hms, hm', hms'⟩⟩

theorem Binding.neat_join? {a b c : Binding} (h : a.join? b = some c) (ha : a.Neat) (hb : b.Neat) :
    c.Neat := by
  obtain ⟨a, b, c, rfl, rfl, hc, rfl⟩ := join?_eq_some_iff.1 h
  exact FunBind.neat_join? hc ha hb

-- Expressions

variable {file : Option String}

theorem gives_mapM {α β : Type} {f : α → Build β} {P : β → Prop} {as : List α}
    (h : ∀ a ∈ as, Gives (f a) P) : Gives (as.mapM f) fun bs => ∀ b ∈ bs, P b := by
  induction as with
  | nil => exact .ok (List.forall_mem_nil _)
  | cons a as ih =>
    obtain ⟨ha, has⟩ := List.forall_mem_cons.1 h
    rw [List.mapM_cons]
    exact ha.bind fun _ hb => (ih has).bind fun _ hbs => .ok (List.forall_mem_cons.2 ⟨hb, hbs⟩)

mutual

theorem neat_atomicExpr : ∀ e : AtomicExpr, Gives (buildAtomicExpr file e) Expr.Neat
  | .var t | .con t => .ok trivial
  | .op l n r => by
    refine .ok ?_
    split <;> exact trivial
  | .int t | .string t => .skip fun _ => .ok trivial
  | .paren l e r => (neat_fullExpr e).bind fun _ hx => .ok hx
  | .nil l r => .ok trivial
  | .list l e rest => (neat_fullExpr e).bind fun _ hx => (neat_listTail rest).bind fun _ hxs =>
    .ok ⟨hx, hxs⟩

theorem neat_listTail : ∀ l : ListTail, Gives (buildListTail file l) Expr.AllNeat
  | .close _ => .ok trivial
  | .more _ e rest => (neat_fullExpr e).bind fun _ hx => (neat_listTail rest).bind fun _ hxs =>
    .ok ⟨hx, hxs⟩

theorem neat_appliedExpr : ∀ e : AppliedExpr, Gives (buildAppliedExpr file e) Expr.Neat
  | .atom e => neat_atomicExpr e
  | .app f a => (neat_appliedExpr f).bind fun _ hx => (neat_atomicExpr a).bind fun _ hy =>
    .ok ⟨hx, hy⟩

theorem neat_operands : ∀ e : Operation,
    Gives (buildOperands file e) fun r => r.1.Neat ∧ Operand.AllNeat r.2
  | .last e => (neat_appliedExpr e).bind fun _ hx => .ok ⟨hx, trivial⟩
  | .more e _ rest => (neat_appliedExpr e).bind fun _ hx => (neat_operands rest).bind fun _ hr =>
    .ok ⟨hx, hr⟩
  | .keyword e _ last => (neat_appliedExpr e).bind fun _ hx =>
    (neat_keywordExpr last).bind fun _ hr => .ok ⟨hx, hr, trivial⟩

theorem neat_keywordExpr : ∀ e : KeywordExpr, Gives (buildKeywordExpr file e) Expr.Neat
  | .lambda bs p ps arrow body => .skip fun _ => .skip fun _ =>
    (neat_fullExpr body).bind fun _ he => .ok he
  | .letIn kw binds inKw body => (neat_letBinds binds).bind fun bs hbs =>
    (neat_fullExpr body).bind fun _ he => by
      refine .ok ⟨Binding.allNeat_iff.2 ?_, he⟩
      exact forall_joinNeighbours (fun _ _ _ => Binding.neat_join?) (Binding.allNeat_iff.1 hbs)
  | .ifThenElse ifKw c thenKw y elseKw n => (neat_fullExpr c).bind fun _ hc =>
    (neat_fullExpr y).bind fun _ hy => (neat_fullExpr n).bind fun _ hn => .ok ⟨hc, hy, hn⟩
  | .caseOf kw s ofKw l alt rest => (neat_caseAlt alt).bind fun _ ha =>
    (neat_altTail rest).bind fun _ has => (neat_fullExpr s).bind fun _ hs =>
      .ok ⟨hs, List.cons_ne_nil _ _, ha has⟩

theorem neat_fullExpr : ∀ e : FullExpr, Gives (buildFullExpr file e) Expr.Neat
  | .keyword e => neat_keywordExpr e
  | .operation e => (neat_operands e).bind fun _ hr => by
    refine .ok ?_
    split
    · exact hr.1
    · exact hr

theorem neat_caseAlt : ∀ a : CaseAlt,
    Gives (buildCaseAlt file a) fun x => ∀ {as}, Alt.AllNeat as → Alt.AllNeat (x :: as)
  | .mk _ _ e => .skip fun _ => (neat_fullExpr e).bind fun _ he => .ok fun has => ⟨he, has⟩

theorem neat_altTail : ∀ l : AltTail, Gives (buildAltTail file l) Alt.AllNeat
  | .close _ | .trailing _ _ => .ok trivial
  | .more _ a rest => (neat_caseAlt a).bind fun _ hx => (neat_altTail rest).bind fun _ hxs =>
    .ok (hx hxs)

theorem neat_letBinds : ∀ b : LetBinds, Gives (buildLetBinds file b) Binding.AllNeat
  | .single b => (neat_letBind b).bind fun _ hx => .ok ⟨hx, trivial⟩
  | .block _ b rest => (neat_letBind b).bind fun _ hx => (neat_letTail rest).bind fun _ hxs =>
    .ok ⟨hx, hxs⟩

theorem neat_letTail : ∀ l : LetTail, Gives (buildLetTail file l) Binding.AllNeat
  | .close _ | .trailing _ _ => .ok trivial
  | .more _ b rest => (neat_letBind b).bind fun _ hx => (neat_letTail rest).bind fun _ hxs =>
    .ok ⟨hx, hxs⟩

theorem neat_letBind : ∀ b : LetBind, Gives (buildLetBind file b) Binding.Neat
  | .equation e => (neat_equation e).bind fun _ hx => .ok hx
  | .pattern e => (neat_patEquation e).bind fun b hx => by
    obtain ⟨p, e, l⟩ := b
    exact .ok hx

/-- One equation is a function by itself. -/
theorem neat_equation : ∀ e : Equation, Gives (buildEquation file e) FunBind.Neat
  | .mk _ _ _ e => .skip fun _ => (neat_fullExpr e).bind fun _ he =>
    .ok ⟨List.forall_mem_singleton.2 rfl, he, trivial⟩

theorem neat_patEquation : ∀ e : PatEquation, Gives (buildPatEquation file e) fun b => b.rhs.Neat
  | .mk _ _ e => .skip fun _ => (neat_fullExpr e).bind fun _ he => .ok he

end

-- Modules

/-- The expressions in a declaration are neat, and the functions that it defines. -/
def Decl.Neat : Decl → Prop
  | .bind b => b.Neat
  | .inst i => ∀ b ∈ i.binds, b.Neat
  | _ => True

def Module.Neat (m : Module) : Prop := ∀ d ∈ m.decls, d.Neat

theorem Module.Neat.bindings {m : Module} (h : m.Neat) : Binding.AllNeat m.bindings := by
  refine Binding.allNeat_iff.2 fun b hb => ?_
  obtain ⟨d, hd, hb⟩ := List.mem_filterMap.1 hb
  cases d with
  | bind b' =>
    obtain rfl := Option.some.inj hb
    exact h _ hd
  | _ => cases hb

theorem Decl.neat_join? {a b c : Decl} (h : a.join? b = some c) (ha : a.Neat) (hb : b.Neat) :
    c.Neat := by
  obtain ⟨a, b, c, rfl, rfl, hc, rfl⟩ := join?_eq_some_iff.1 h
  exact FunBind.neat_join? hc ha hb

theorem neat_decl (d : Concrete.Decl) : Gives (buildDecl file d) Decl.Neat := by
  unfold buildDecl
  cases d with
  | data | signature | primitive | typeClass => exact .skip fun _ => .ok trivial
  | fixity =>
    refine .skip fun n => ?_
    split
    · exact .misuse _ _
    · exact .ok trivial
  | inst kw head body =>
    refine .skip fun q => ?_
    split
    · refine (gives_mapM fun e _ => neat_equation e).bind fun eqs heqs => .ok ?_
      exact forall_joinNeighbours (fun _ _ _ => FunBind.neat_join?) heqs
    · exact .misuse _ _
  | equation e => exact (neat_equation e).bind fun _ he => .ok he
  | pattern e => exact (neat_patEquation e).bind fun ⟨_, _, _⟩ he => .ok he

theorem gives_topDecls {P : Decl → Prop} {ds : List TopDecl}
    (h : ∀ d, .decl d ∈ ds → Gives (buildDecl file d) P) {p : Progress} (hp : ∀ d ∈ p.decls, P d) :
    Gives (ds.foldlM (buildTopDecl file) p) fun q => ∀ d ∈ q.decls, P d := by
  induction ds generalizing p with
  | nil => exact .ok hp
  | cons d ds ih =>
    rw [List.foldlM_cons]
    have hstep : Gives (buildTopDecl file p d) fun q => ∀ d ∈ q.decls, P d := by
      unfold buildTopDecl
      cases d with
      | header | importDecl =>
        dsimp only
        split
        · exact .misuse _ _
        · exact .ok hp
      | decl d =>
        refine (h d List.mem_cons_self).bind fun x hx => .ok ?_
        exact List.forall_mem_append.2 ⟨hp, List.forall_mem_singleton.2 hx⟩
    exact hstep.bind fun q hq => ih (fun d hd => h d (List.mem_cons_of_mem _ hd)) hq

/-- What each declaration has that is read from the tokens of a text, and neighbours keep when they
are joined, all declarations of a module that is read from the text have. -/
theorem forall_decls_of_parseModule {P : Decl → Prop} {w : Int} {source : String}
    (hdecl : ∀ d : Concrete.Decl,
      (∀ t ∈ d.yield, t ∈ Layout.process w (Lex.lex source.toList).tokens) →
        Gives (buildDecl file d) P)
    (hjoin : ∀ a b c : Decl, a.join? b = some c → P a → P b → P c) {m : Module}
    (h : parseModule w file source = .ok m) : ∀ d ∈ m.decls, P d := by
  obtain ⟨c, hread, hbuild⟩ := exists_buildModule_of_parseModule h
  have hdecls (d : Concrete.Decl) (hd : .decl d ∈ c.toList) : Gives (buildDecl file d) P := by
    refine hdecl d fun t ht => ?_
    rw [← (readModule_eq_ok_iff.1 hread).2]
    exact mem_yield_of_mem_toList hd ht
  have hmodule : Gives (buildModule file c) fun m => ∀ d ∈ m.decls, P d :=
    (gives_topDecls hdecls (List.forall_mem_nil _)).bind fun p hp =>
      .ok (forall_joinNeighbours hjoin hp)
  exact hmodule m hbuild

/-- In a module that is read from a text, the equations of each function have equally many
patterns, and no case is without alternatives. -/
theorem neat_parseModule {w : Int} {source : String} {m : Module}
    (h : parseModule w file source = .ok m) : m.Neat :=
  forall_decls_of_parseModule (fun d _ => neat_decl d) (fun _ _ _ => Decl.neat_join?) h

end TypeLens.Surface
