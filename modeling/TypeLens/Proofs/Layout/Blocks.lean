import TypeLens.Layout

/-!
Layout recovers blocks. A tree of items is written down with line ends that show its blocks by
indentation alone; the tokens that `process` makes of this text are the items again, with explicit
separators and limits of blocks. Nothing in the result depends on the columns that were chosen.
-/

namespace TypeLens.Layout

/-! ### Items and their text -/

/-- A line end indents to a column with spaces only. -/
def Indents (n : Token) (k : Nat) : Prop := lastLine n.text.toList = List.replicate k ' '

/-- How many brackets are open after a token. -/
def bracketsAfter (depth : Nat) (t : Token) : Nat :=
  match t.kind with
  | .lparen | .lbracket | .lbrace => depth + 1
  | .rparen | .rbracket | .rbrace => depth - 1
  | _ => depth

/-- A token and the line ends before it. -/
structure Placed where
  breaks : List Token
  token : Token
  breaks_newline : ∀ n ∈ breaks, n.kind = .newline
  token_ne_newline : token.kind ≠ .newline

namespace Placed

def source (p : Placed) : List Token := p.breaks ++ [p.token]

/-- It starts a line at a column. -/
def StartsLine (k : Nat) (p : Placed) : Prop := ∃ n ∈ p.breaks.getLast?, Indents n k

/-- It starts a line at a column, or stands there without a line end before it: at the start of the
text, or on the line of the `where` that opens its block. -/
def StartsAt (k : Nat) (p : Placed) : Prop :=
  p.StartsLine k ∨ p.breaks = [] ∧ p.token.region.start.column = k + 1

/-- It goes on with the line, or with a continuation line deeper than a column. -/
def Continues (k : Nat) (p : Placed) : Prop := p.breaks = [] ∨ ∃ j > k, p.StartsLine j

end Placed

/-- Line ends outside of brackets start continuation lines, the others indent as they like. -/
def Continued (k : Nat) : Nat → List Placed → Prop
  | _, [] => True
  | depth, p :: ps =>
    (depth = 0 → p.Continues k) ∧ Continued k (bracketsAfter depth p.token) ps

/-- The tokens of an item itself: no bracket stays open, and only the last one can be `where`. -/
structure Words where
  head : Placed
  rest : List Placed
  closed : (rest.map Placed.token).foldl bracketsAfter (bracketsAfter 0 head.token) = 0
  ne_where : ∀ t ∈ (head.token :: rest.map Placed.token).dropLast, t.kind ≠ .kwWhere

namespace Words

def tokens (w : Words) : List Token := w.head.token :: w.rest.map Placed.token

def last (w : Words) : Token := (w.rest.map Placed.token).getLastD w.head.token

/-- An item at a column, whatever is before its first token. -/
def LaidOut (k : Nat) (w : Words) : Prop := Continued k (bracketsAfter 0 w.head.token) w.rest

end Words

/-- An item either has no block or ends with `where` and has one, which may be empty. -/
inductive Item
  | plain (words : Words) (h : words.last.kind ≠ .kwWhere)
  | block (words : Words) (h : words.last.kind = .kwWhere) (items : List Item)

namespace Item

def words : Item → Words
  | .plain w _ | .block w _ _ => w

/-- The token that an item starts with. -/
def head (i : Item) : Placed := i.words.head

end Item

mutual

/-- An item of a block at a column: a block below it is deeper. -/
def Item.LaidOut : Nat → Item → Prop
  | k, .plain w _ => w.LaidOut k
  | k, .block w _ items => w.LaidOut k ∧ ∃ j > k, BlockLaidOut j items

/-- The items of a block all start a line at its column. -/
def BlockLaidOut : Nat → List Item → Prop
  | _, [] => True
  | k, i :: is => i.head.StartsAt k ∧ i.LaidOut k ∧ FollowLaidOut k is

/-- The items of a block after the first one. -/
def FollowLaidOut : Nat → List Item → Prop
  | _, [] => True
  | k, i :: is => i.head.StartsLine k ∧ i.LaidOut k ∧ FollowLaidOut k is

end

mutual

/-- The text of an item after its first token. -/
def Item.tail : Item → List Token
  | .plain w _ => w.rest.flatMap Placed.source
  | .block w _ items => w.rest.flatMap Placed.source ++ sourceOf items

/-- The text of the items of a block. -/
def sourceOf : List Item → List Token
  | [] => []
  | i :: is => i.head.source ++ i.tail ++ sourceOf is

end

mutual

/-- The last token of an item and of all below it. -/
def Item.final : Item → Token
  | .plain w _ => w.last
  | .block w _ items => finalOf w.last items

/-- The last token of some items, which follow a token. -/
def finalOf (t : Token) : List Item → Token
  | [] => t
  | i :: is => finalOf i.final is

end

mutual

/-- An item with the limits of its blocks made explicit. -/
def Item.marked : Item → List Token
  | .plain w _ => w.tokens
  | .block w _ items =>
    w.tokens ++ synthetic .blockOpen w.last :: markedOf items
      ++ [synthetic .blockClose (finalOf w.last items)]

/-- The items of a block with separators between them. -/
def markedOf : List Item → List Token
  | [] => []
  | i :: is => i.marked ++ separated i.final is

/-- The items after a token, with a separator before each. -/
def separated (t : Token) : List Item → List Token
  | [] => []
  | i :: is => synthetic .itemSep t :: i.marked ++ separated i.final is

end

/-! ### Indentation -/

theorem foldl_spaces (tabWidth : Int) (k col : Nat) :
    (List.replicate k ' ').foldl (fun col c =>
      if c = '\t' then
        if 0 < tabWidth then col + (tabWidth.toNat - col % tabWidth.toNat) else col
      else col + 1) col = col + k := by
  induction k generalizing col with
  | zero => rfl
  | succ k ih =>
    have hc : ¬ ' ' = '\t' := by decide
    rw [List.replicate_succ, List.foldl_cons, if_neg hc, ih]
    omega

/-- Tab stops are of no concern where lines are indented with spaces. -/
theorem Indents.indentOf_eq {n : Token} {k : Nat} (h : Indents n k) (tabWidth : Int) :
    indentOf tabWidth n = k := by
  rw [indentOf, h, indentWidth, foldl_spaces, Nat.zero_add]

theorem Placed.StartsAt.columnOf_eq {p : Placed} {k : Nat} (h : p.StartsAt k) (tabWidth : Int) :
    columnOf tabWidth p.breaks.getLast? p.token = k := by
  obtain ⟨n, hn, hi⟩ | ⟨hb, hc⟩ := h
  · rw [Option.mem_def.mp hn, columnOf, hi.indentOf_eq]
  · rw [hb, List.getLast?_nil, columnOf, hc, Nat.add_sub_cancel]

/-! ### Single tokens -/

/-- The state after a token, when all blocks in question are open. -/
def after (base : Nat) (blocks : List Nat) (depth : Nat) (t : Token) : State :=
  { base, blocks, depth, expectBlock := t.kind = .kwWhere, last := some t }

/-- The same state outside of brackets with a line end that is pending. -/
def waiting (base : Nat) (blocks : List Nat) (t : Token) (q : Option Token) : State :=
  { after base blocks 0 t with pending := q }

/-- What is due before an item follows a token and some blocks end. -/
def owed (t : Token) (ended : List Nat) : List Token :=
  (if t.kind = .kwWhere then [synthetic .blockOpen t, synthetic .blockClose t] else [])
    ++ ended.map fun _ => synthetic .blockClose t

theorem owed_of_ne_where {t : Token} (h : t.kind ≠ .kwWhere) : owed t [] = [] := by
  rw [owed, if_neg h]
  rfl

theorem owed_of_where {t : Token} (h : t.kind = .kwWhere) :
    owed t [] = [synthetic .blockOpen t, synthetic .blockClose t] := by
  rw [owed, if_pos h]
  rfl

theorem owed_append (t : Token) (as bs : List Nat) :
    owed t (as ++ bs) = owed t as ++ bs.map fun _ => synthetic .blockClose t := by
  simp [owed]

theorem shift_eq_after {s : State} (t : Token) (hp : s.pending = none)
    (he : s.expectBlock = false) :
    shift s t = after s.base s.blocks (bracketsAfter s.depth t) t := by
  obtain ⟨base, blocks, depth, pending, expectBlock, last⟩ := s
  cases hp
  cases he
  simp only [shift, after, bracketsAfter]
  cases t.kind <;> rfl

theorem run_append (tabWidth : Int) (s : State) (ts us : List Token) :
    run tabWidth s (ts ++ us) =
      ((run tabWidth s ts).1 ++ (run tabWidth (run tabWidth s ts).2 us).1,
        (run tabWidth (run tabWidth s ts).2 us).2) := by
  induction ts generalizing s with
  | nil => rfl
  | cons t ts ih => simp only [List.cons_append, run, ih, List.append_assoc]

/-- Of several line ends outside of brackets only the last one counts. -/
theorem run_breaks {tabWidth : Int} {s : State} {ns : List Token} (hd : s.depth = 0)
    (h : ∀ n ∈ ns, n.kind = .newline) :
    run tabWidth s ns = ([], { s with pending := ns.getLast?.or s.pending }) := by
  induction ns generalizing s with
  | nil => rfl
  | cons n ns ih =>
    have hn : n.kind = .newline := h n List.mem_cons_self
    have hns : ∀ m ∈ ns, m.kind = .newline := fun m hm => h m (List.mem_cons_of_mem n hm)
    have rest := @ih { s with pending := some n } hd hns
    simp only [run, step, if_pos hn, if_pos hd, rest, List.getLast?_cons]
    cases ns.getLast? <;> rfl

/-- Inside of brackets they do not count. -/
theorem run_breaks_of_depth_ne_zero {tabWidth : Int} {s : State} {ns : List Token}
    (hd : s.depth ≠ 0) (h : ∀ n ∈ ns, n.kind = .newline) : run tabWidth s ns = ([], s) := by
  induction ns with
  | nil => rfl
  | cons n ns ih =>
    have hn : n.kind = .newline := h n List.mem_cons_self
    simp only [run, step, if_pos hn, if_neg hd, ih fun m hm => h m (List.mem_cons_of_mem n hm),
      List.append_nil]

variable {tabWidth : Int} {base k : Nat} {blocks ended : List Nat} {t : Token}

/-- Deeper blocks close, down to the one whose column is `k`. -/
theorem closeBlocks_append (base : Nat) (t : Token) (he : ∀ b ∈ ended, k < b)
    (hk : blocks.head?.getD base ≤ k) :
    closeBlocks k t (ended ++ blocks) = (ended.map fun _ => synthetic .blockClose t, blocks) := by
  induction ended with
  | nil =>
    cases blocks with
    | nil => rfl
    | cons b bs =>
      have hle : ¬ k < b := Nat.not_lt.mpr hk
      rw [List.nil_append, closeBlocks, if_neg hle, List.map_nil]
  | cons b ended ih =>
    have hlt : k < b := he b List.mem_cons_self
    rw [List.cons_append, closeBlocks, if_pos hlt, ih fun c hc => he c (List.mem_cons_of_mem b hc)]
    rfl

/-- A continuation line changes nothing. -/
theorem startLine_deeper {s : State} {n : Token} (hn : s.pending = some n) (hi : Indents n k)
    (hl : s.last = some t) (hk : s.column < k) :
    startLine tabWidth s = ([], { s with pending := none }) := by
  have kept : closeBlocks k t ([] ++ s.blocks) = ([], s.blocks) :=
    closeBlocks_append s.base t (fun _ h => absurd h List.not_mem_nil) (Nat.le_of_lt hk)
  rw [List.nil_append] at kept
  have apart : ¬ k = s.column := by omega
  simp only [State.column] at apart
  simp only [startLine, hn, hl, hi.indentOf_eq, kept, State.column, if_neg apart, List.append_nil]

/-- The line of an item that follows another one. -/
theorem startLine_follow {s : State} {n : Token} (hn : s.pending = some n) (hi : Indents n k)
    (hl : s.last = some t) (hs : s.blocks = ended ++ blocks) (he : ∀ b ∈ ended, k < b)
    (hk : blocks.head?.getD s.base = k) :
    startLine tabWidth s =
      ((ended.map fun _ => synthetic .blockClose t) ++ [synthetic .itemSep t],
        { s with pending := none, blocks := blocks }) := by
  have closed := closeBlocks_append s.base t he (Nat.le_of_eq hk)
  simp only [startLine, hn, hl, hi.indentOf_eq, hs, closed, State.column, if_pos hk.symm]

theorem startLine_of_pending_none {s : State} (h : s.pending = none) :
    startLine tabWidth s = ([], s) := by
  rw [startLine, h]

theorem openBlock_of_not_expectBlock {s : State} (u : Token) (h : s.expectBlock = false) :
    openBlock tabWidth s u = ([], s) := by
  rw [openBlock, h]
  cases s.last <;> rfl

theorem begin_of_last {s : State} (h : s.last = some t) (u : Token) :
    begin tabWidth s u = s := by
  rw [begin, h]

/-- A token from what it does to blocks before it is taken itself. -/
theorem step_eq {s s₁ s₂ s₃ : State} {u : Token} {opened started : List Token}
    (hu : u.kind ≠ .newline) (hs : begin tabWidth s u = s₁)
    (ho : openBlock tabWidth s₁ u = (opened, s₂)) (hl : startLine tabWidth s₂ = (started, s₃))
    (hp : s₃.pending = none) (he : s₃.expectBlock = false) :
    step tabWidth s u =
      (opened ++ started ++ [u], after s₃.base s₃.blocks (bracketsAfter s₃.depth u) u) := by
  simp only [step, if_neg hu, hs, ho, hl, shift_eq_after u hp he]

/-- Outside of brackets the line ends before a token are pending when it comes. -/
theorem run_source (p : Placed) :
    run tabWidth (after base blocks 0 t) p.source =
      step tabWidth (waiting base blocks t p.breaks.getLast?) p.token := by
  rw [Placed.source, run_append, run_breaks rfl p.breaks_newline]
  simp only [run, after, waiting, Option.or_none, List.nil_append, List.append_nil]

theorem run_source_of_depth_ne_zero {depth : Nat} (hd : depth ≠ 0) (p : Placed) :
    run tabWidth (after base blocks depth t) p.source =
      step tabWidth (after base blocks depth t) p.token := by
  rw [Placed.source, run_append, run_breaks_of_depth_ne_zero hd p.breaks_newline]
  simp only [run, List.nil_append, List.append_nil]

/-- A token without a line end that counts, in the course of an item. -/
theorem step_after {depth : Nat} {u : Token} (ht : t.kind ≠ .kwWhere) (hu : u.kind ≠ .newline) :
    step tabWidth (after base blocks depth t) u =
      ([u], after base blocks (bracketsAfter depth u) u) :=
  have hw : (after base blocks depth t).expectBlock = false := decide_eq_false ht
  step_eq hu (begin_of_last rfl u) (openBlock_of_not_expectBlock u hw)
    (startLine_of_pending_none rfl) rfl hw

/-- A token in the course of an item adds nothing but itself. -/
theorem run_continue {depth : Nat} {p : Placed} (hk : blocks.head?.getD base = k)
    (ht : t.kind ≠ .kwWhere) (hp : depth = 0 → p.Continues k) :
    run tabWidth (after base blocks depth t) p.source =
      ([p.token], after base blocks (bracketsAfter depth p.token) p.token) := by
  by_cases hd : depth = 0
  · subst hd
    rw [run_source]
    obtain hb | ⟨j, hj, n, hn, hi⟩ := hp rfl
    · rw [hb]
      exact step_after ht p.token_ne_newline
    · have deeper : (waiting base blocks t p.breaks.getLast?).column < j := by
        rw [← hk] at hj
        exact hj
      have hw : decide (t.kind = .kwWhere) = false := decide_eq_false ht
      rw [step_eq p.token_ne_newline (begin_of_last rfl p.token)
        (openBlock_of_not_expectBlock p.token hw) (startLine_deeper hn hi rfl deeper) rfl hw]
      rfl
  · rw [run_source_of_depth_ne_zero hd, step_after ht p.token_ne_newline]

/-- The block after `where` is empty if the next token is not deeper than the block around it. -/
theorem openBlock_waiting {n u : Token} (hn : Indents n k)
    (hk : k ≤ (waiting base blocks t (some n)).column) :
    openBlock tabWidth (waiting base blocks t (some n)) u =
      (owed t [], { waiting base blocks t (some n) with expectBlock := false }) := by
  have shallow : ¬ (waiting base blocks t (some n)).column < indentOf tabWidth n := by
    rw [hn.indentOf_eq]
    omega
  by_cases ht : t.kind = .kwWhere
  · simp only [openBlock, waiting, after, columnOf, ht, decide_true, if_true, owed, List.map_nil,
      List.append_nil]
    exact if_neg shallow
  · rw [openBlock_of_not_expectBlock u (decide_eq_false ht), owed, if_neg ht]
    simp only [waiting, after, ht, decide_false, List.map_nil, List.append_nil]

/-- The first token of an item that follows another one. -/
theorem run_follow {p : Placed} (hk : blocks.head?.getD base = k) (he : ∀ b ∈ ended, k < b)
    (hp : p.StartsLine k) :
    run tabWidth (after base (ended ++ blocks) 0 t) p.source =
      (owed t ended ++ [synthetic .itemSep t, p.token],
        after base blocks (bracketsAfter 0 p.token) p.token) := by
  obtain ⟨n, hn, hi⟩ := hp
  rw [run_source, Option.mem_def.mp hn]
  have innermost : k ≤ (waiting base (ended ++ blocks) t (some n)).column := by
    cases ended with
    | nil => exact Nat.le_of_eq hk.symm
    | cons b ended => exact Nat.le_of_lt (he b List.mem_cons_self)
  rw [step_eq p.token_ne_newline (begin_of_last rfl p.token) (openBlock_waiting hi innermost)
    (startLine_follow rfl hi rfl rfl he hk) rfl rfl]
  simp [owed, waiting, after]

/-- The first token of a block that `where` opens. -/
theorem run_open {p : Placed} (hk : blocks.head?.getD base < k) (ht : t.kind = .kwWhere)
    (hp : p.StartsAt k) :
    run tabWidth (after base blocks 0 t) p.source =
      ([synthetic .blockOpen t, p.token],
        after base (k :: blocks) (bracketsAfter 0 p.token) p.token) := by
  have opened : openBlock tabWidth (waiting base blocks t p.breaks.getLast?) p.token =
      ([synthetic .blockOpen t], { after base (k :: blocks) 0 t with expectBlock := false }) := by
    simp only [openBlock, waiting, after, ht, decide_true, if_true, hp.columnOf_eq, State.column,
      if_pos hk]
  rw [run_source, step_eq p.token_ne_newline (begin_of_last rfl p.token) opened
    (startLine_of_pending_none rfl) rfl rfl]
  rfl

/-- The first token of all fixes the column of the outermost items. -/
theorem run_first {p : Placed} (hp : p.StartsAt k) :
    run tabWidth {} p.source =
      ([p.token], after k [] (bracketsAfter 0 p.token) p.token) := by
  have begun : begin tabWidth { pending := p.breaks.getLast? } p.token = { base := k } := by
    simp only [begin, hp.columnOf_eq]
  rw [Placed.source, run_append, run_breaks rfl p.breaks_newline]
  simp only [run, Option.or_none, List.nil_append, List.append_nil]
  rw [step_eq p.token_ne_newline begun (openBlock_of_not_expectBlock p.token rfl)
    (startLine_of_pending_none rfl) rfl rfl]
  rfl

/-! ### Items -/

/-- The tokens of an item after its first one. -/
theorem run_rest {depth : Nat} {ps : List Placed} (hk : blocks.head?.getD base = k)
    (hp : Continued k depth ps)
    (hw : ∀ u ∈ (t :: ps.map Placed.token).dropLast, u.kind ≠ .kwWhere) :
    run tabWidth (after base blocks depth t) (ps.flatMap Placed.source) =
      (ps.map Placed.token,
        after base blocks ((ps.map Placed.token).foldl bracketsAfter depth)
          ((ps.map Placed.token).getLastD t)) := by
  induction ps generalizing depth t with
  | nil => rfl
  | cons p ps ih =>
    have ht : t.kind ≠ .kwWhere := hw t List.mem_cons_self
    have hw' : ∀ u ∈ (p.token :: ps.map Placed.token).dropLast, u.kind ≠ .kwWhere :=
      fun u hu => hw u (List.mem_cons_of_mem t hu)
    rw [List.flatMap_cons, run_append, run_continue hk ht hp.1, ih hp.2 hw']
    simp only [List.map_cons, List.foldl_cons, List.getLastD_cons, List.cons_append,
      List.nil_append]

/-- The tokens of an item itself. -/
theorem run_words {w : Words} (hk : blocks.head?.getD base = k) (hw : w.LaidOut k) :
    run tabWidth (after base blocks (bracketsAfter 0 w.head.token) w.head.token)
        (w.rest.flatMap Placed.source) =
      (w.rest.map Placed.token, after base blocks 0 w.last) := by
  rw [run_rest hk hw w.ne_where, w.closed]
  rfl

/-- Tokens that lead to a place where items of the block at column `k` begin. Blocks that ended on
the way may still be open there, and with what is owed for them the output is what is expected. -/
def Yields (tabWidth : Int) (base k : Nat) (blocks : List Nat) (s : State) (ts : List Token)
    (last : Token) (expected : List Token) : Prop :=
  ∃ ended out, run tabWidth s ts = (out, after base (ended ++ blocks) 0 last) ∧
    (∀ b ∈ ended, k < b) ∧ out ++ owed last ended = expected

namespace Yields

variable {s s' : State} {ts us out expected expected' : List Token} {last : Token}

theorem of_run (h : run tabWidth s ts = (out, after base blocks 0 last)) :
    Yields tabWidth base k blocks s ts last (out ++ owed last []) :=
  ⟨[], out, h, fun _ hb => absurd hb List.not_mem_nil, rfl⟩

theorem cons (h : run tabWidth s ts = (out, s'))
    (hy : Yields tabWidth base k blocks s' us last expected) :
    Yields tabWidth base k blocks s (ts ++ us) last (out ++ expected) := by
  obtain ⟨ended, out', hr, he, rfl⟩ := hy
  exact ⟨ended, out ++ out', by rw [run_append, h, hr], he, List.append_assoc out out' _⟩

/-- What is owed is paid by the tokens that follow. -/
theorem append (hy : Yields tabWidth base k blocks s ts t expected)
    (h : ∀ ended, (∀ b ∈ ended, k < b) →
      Yields tabWidth base k blocks (after base (ended ++ blocks) 0 t) us last
        (owed t ended ++ expected')) :
    Yields tabWidth base k blocks s (ts ++ us) last (expected ++ expected') := by
  obtain ⟨ended, out, hr, he, rfl⟩ := hy
  obtain ⟨ended', out', hr', he', hout⟩ := h ended he
  refine ⟨ended', out ++ out', by rw [run_append, hr, hr'], he', ?_⟩
  rw [List.append_assoc, hout, List.append_assoc]

/-- A block ends where the one around it goes on. -/
theorem close {j : Nat} (hy : Yields tabWidth base j (j :: blocks) s ts last expected)
    (hj : k < j) :
    Yields tabWidth base k blocks s ts last (expected ++ [synthetic .blockClose last]) := by
  obtain ⟨ended, out, hr, he, rfl⟩ := hy
  refine ⟨ended ++ [j], out, by rw [hr, List.append_assoc]; rfl, ?_, ?_⟩
  · intro b hb
    rw [List.mem_append, List.mem_singleton] at hb
    obtain hb | rfl := hb
    · exact Nat.lt_trans hj (he b hb)
    · exact hj
  · rw [owed_append, List.map_singleton, List.append_assoc]

/-- At the end of the text all that is owed is paid. -/
theorem process_eq {trailing : List Token}
    (hy : Yields tabWidth base k [] {} ts last expected) (ht : ∀ n ∈ trailing, n.kind = .newline) :
    process tabWidth (ts ++ trailing) = expected := by
  obtain ⟨ended, out, hr, -, rfl⟩ := hy
  simp only [process, run_append, hr, run_breaks (s := after _ _ 0 _) rfl ht]
  simp [finish, after, owed]

end Yields

theorem Item.cons_tail_marked (i : Item) : i.head.token :: i.marked.tail = i.marked := by
  cases i <;> rw [Item.marked] <;> rfl

mutual

/-- An item from its first token on. -/
theorem yields_item {blocks : List Nat} {k : Nat} (hk : blocks.head?.getD base = k) :
    ∀ {i : Item}, i.LaidOut k →
      Yields tabWidth base k blocks
        (after base blocks (bracketsAfter 0 i.head.token) i.head.token) i.tail i.final
        i.marked.tail
  | .plain w h, hi => by
    rw [Item.LaidOut] at hi
    have own : Yields tabWidth base k blocks _ _ _ _ := .of_run (run_words hk hi)
    rw [owed_of_ne_where h, List.append_nil] at own
    rw [Item.tail, Item.final, Item.marked]
    exact own
  | .block w h [], hi => by
    rw [Item.LaidOut] at hi
    have own : Yields tabWidth base k blocks _ _ _ _ := .of_run (run_words hk hi.1)
    rw [owed_of_where h] at own
    rw [Item.tail, Item.final, Item.marked, sourceOf, markedOf, finalOf, List.append_nil,
      List.append_assoc]
    exact own
  | .block w h (i :: is), hi => by
    rw [Item.LaidOut] at hi
    obtain ⟨hw, j, hj, hb⟩ := hi
    rw [BlockLaidOut] at hb
    obtain ⟨start, first, following⟩ := hb
    have deeper : blocks.head?.getD base < j := by omega
    have column : (j :: blocks).head?.getD base = j := rfl
    have inner : Yields tabWidth base j (j :: blocks)
        (after base (j :: blocks) (bracketsAfter 0 i.head.token) i.head.token)
        (i.tail ++ sourceOf is) (finalOf i.final is) (i.marked.tail ++ separated i.final is) :=
      (yields_item column first).append fun ended he =>
        yields_following column i.final ended following he
    have whole := ((inner.cons (run_open deeper h start)).close hj).cons (run_words hk hw)
    rw [Item.tail, sourceOf, Item.final, finalOf, Item.marked, markedOf, finalOf,
      ← i.cons_tail_marked, List.append_assoc i.head.source]
    simpa only [Item.head, Item.words, Words.tokens, List.tail_cons, List.append_assoc,
      List.cons_append, List.nil_append] using whole

/-- Items that follow a token: first of all what that token owes is paid. -/
theorem yields_following {blocks : List Nat} {k : Nat} (hk : blocks.head?.getD base = k) :
    ∀ {items : List Item} (t : Token) (ended : List Nat), FollowLaidOut k items →
      (∀ b ∈ ended, k < b) →
      Yields tabWidth base k blocks (after base (ended ++ blocks) 0 t) (sourceOf items)
        (finalOf t items) (owed t ended ++ separated t items)
  | [], t, ended, _, he => by
    rw [sourceOf, finalOf, separated, List.append_nil]
    exact ⟨ended, [], rfl, he, rfl⟩
  | i :: is, t, ended, h, he => by
    rw [FollowLaidOut] at h
    obtain ⟨start, hi, following⟩ := h
    have inner : Yields tabWidth base k blocks
        (after base blocks (bracketsAfter 0 i.head.token) i.head.token)
        (i.tail ++ sourceOf is) (finalOf i.final is) (i.marked.tail ++ separated i.final is) :=
      (yields_item hk hi).append fun ended he => yields_following hk i.final ended following he
    have whole := inner.cons (run_follow (t := t) hk he start)
    rw [sourceOf, finalOf, separated, ← i.cons_tail_marked, List.append_assoc i.head.source]
    simpa only [List.append_assoc, List.cons_append, List.nil_append] using whole

end

/-- Layout recovers the blocks of a text: whatever the columns and the line ends by which the items
are laid out, and whatever the tab stops, `process` yields the tokens of the items in order, with a
separator between the items of a block and limits around each block, also around empty ones and
those that the end of the text cuts off. -/
theorem process_sourceOf (tabWidth : Int) {k : Nat} {items : List Item} {trailing : List Token}
    (hl : BlockLaidOut k items) (ht : ∀ n ∈ trailing, n.kind = .newline) :
    process tabWidth (sourceOf items ++ trailing) = markedOf items := by
  cases items with
  | nil =>
    rw [process, sourceOf, List.nil_append, run_breaks rfl ht, markedOf]
    rfl
  | cons i is =>
    rw [BlockLaidOut] at hl
    obtain ⟨start, hi, following⟩ := hl
    have column : [].head?.getD k = k := rfl
    have inner : Yields tabWidth k k []
        (after k [] (bracketsAfter 0 i.head.token) i.head.token)
        (i.tail ++ sourceOf is) (finalOf i.final is) (i.marked.tail ++ separated i.final is) :=
      (yields_item column hi).append fun ended he =>
        yields_following column i.final ended following he
    have whole := (inner.cons (run_first start)).process_eq ht
    rw [sourceOf, List.append_assoc i.head.source, whole, markedOf, ← i.cons_tail_marked]
    rfl

/-- A line end that indents to a column. -/
def newlineTo (k : Nat) : Token :=
  ⟨.newline, .ofList ('\n' :: List.replicate k ' '), ⟨.first, .first⟩⟩

theorem indents_newlineTo (k : Nat) : Indents (newlineTo k) k := by
  have spaces : ∀ c ∈ List.replicate k ' ', decide (c ≠ '\n') = true := by
    intro c hc
    rw [List.eq_of_mem_replicate hc]
    rfl
  rw [Indents, newlineTo, String.toList_ofList, lastLine, List.reverse_cons,
    List.reverse_replicate, List.takeWhile_append_of_pos spaces]
  simp

/-- `class where` with an item `m` and an empty `class where` below it, then an item `x` with
brackets over three lines. -/
def nestedBlocks : List Item :=
  let token (kind : Terminal) (text : String) : Token := ⟨kind, text, ⟨.first, .first⟩⟩
  let go (t : Token) (h : t.kind ≠ .newline) : Placed := ⟨[], t, by decide, h⟩
  let start (k : Nat) (t : Token) (h : t.kind ≠ .newline) : Placed :=
    ⟨[newlineTo k], t, fun _ hn => List.mem_singleton.mp hn ▸ rfl, h⟩
  let whereWord : Placed := go (token .kwWhere "where") (by decide)
  [.block ⟨go (token .kwClass "class") (by decide), [whereWord], rfl, by decide⟩ rfl
      [.plain ⟨start 2 (token .varid "m") (by decide), [], rfl, by decide⟩ (by decide),
        .block ⟨start 2 (token .kwClass "class") (by decide), [whereWord], rfl, by decide⟩ rfl []],
    .plain
      ⟨start 0 (token .varid "x") (by decide),
        [go (token .lparen "(") (by decide), start 0 (token .int "1") (by decide),
          start 0 (token .rparen ")") (by decide)], rfl, by decide⟩ (by decide)]

theorem process_nestedBlocks :
    BlockLaidOut 0 nestedBlocks ∧ (∀ n ∈ [newlineTo 0], n.kind = .newline) ∧
      process 8 (sourceOf nestedBlocks ++ [newlineTo 0]) = markedOf nestedBlocks ∧
      (markedOf nestedBlocks).map Token.kind =
        [.kwClass, .kwWhere, .blockOpen, .varid, .itemSep, .kwClass, .kwWhere, .blockOpen,
          .blockClose, .blockClose, .itemSep, .varid, .lparen, .int, .rparen] := by
  have starts (k : Nat) : ∃ n ∈ [newlineTo k].getLast?, Indents n k :=
    ⟨newlineTo k, rfl, indents_newlineTo k⟩
  have laidOut : BlockLaidOut 0 nestedBlocks := by
    simp only [nestedBlocks, BlockLaidOut, FollowLaidOut, Item.LaidOut, Words.LaidOut, Continued,
      bracketsAfter, Item.head, Item.words, Placed.StartsLine, starts, true_and, and_true]
    refine ⟨.inr ⟨rfl, rfl⟩, ⟨fun _ => .inl rfl, 2, by decide, .inl (starts 2), starts 2,
      fun _ => .inl rfl, 3, by decide⟩, fun _ => .inl rfl, ?_, ?_⟩
    -- a line end inside of brackets
    · exact fun h => absurd h (by decide)
    · exact fun h => absurd h (by decide)
  have trailing : ∀ n ∈ [newlineTo 0], n.kind = .newline := by decide
  exact ⟨laidOut, trailing, process_sourceOf 8 laidOut trailing, by rfl⟩

end TypeLens.Layout
