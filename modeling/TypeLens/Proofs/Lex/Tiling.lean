import Mathlib.Computability.Language
import TypeLens.Proofs.Lex.Lines

/-!
Tokens, with the text between them, tile a text that is lexed to its end. The patterns of terminals
are languages: the text of a token is a word of its terminal's language, and with more of what
follows it is none. A stretch of text lies where the text before it ends, so that its region is
known from what is before it, whatever that consists of.
-/

namespace TypeLens

open Language
open scoped Computability

namespace Terminal

open TypeLens.Lex (isLower isUpper isDigit isWordChar isOperatorChar)

/-- Texts of one character that satisfies `p`. -/
def oneOf (p : Char → Bool) : Language Char := {w | ∃ c, p c = true ∧ w = [c]}

/-- One text alone. -/
def exactly (s : String) : Language Char := {w | w = s.toList}

/-- The text of a terminal that has but one. -/
def spelling? : Terminal → Option String
  | kwModule => "module"
  | kwImport => "import"
  | kwData => "data"
  | kwPrimitive => "primitive"
  | kwInfixl => "infixl"
  | kwInfixr => "infixr"
  | kwInfix => "infix"
  | kwClass => "class"
  | kwWhere => "where"
  | kwInstance => "instance"
  | kwLet => "let"
  | kwIn => "in"
  | kwIf => "if"
  | kwThen => "then"
  | kwElse => "else"
  | kwCase => "case"
  | kwOf => "of"
  | wildcard => "_"
  | equals => "="
  | bar => "|"
  | arrow => "->"
  | fatArrow => "=>"
  | doubleColon => "::"
  | backslash => "\\"
  | lparen => "("
  | rparen => ")"
  | lbracket => "["
  | rbracket => "]"
  | lbrace => "\x7b"
  | rbrace => "\x7d"
  | comma => ","
  | semi => ";"
  | conid | varid | operator | int | string | newline | itemSep | blockOpen | blockClose => none

/-- What stands between the quotes of a string. -/
def stringChar : Language Char :=
  exactly "\\" * oneOf (· ≠ '\n') + oneOf fun c => c ≠ '"' && c ≠ '\\' && c ≠ '\n'

/-- A line end and the indentation after it. -/
def lineBreak : Language Char :=
  (exactly "\n" + exactly "\r\n") * (oneOf fun c => c == '\t' || c == ' ')∗

/-- The patterns of terminals that have more than one text; those of layout have none. -/
def pattern : Terminal → Language Char
  | conid => oneOf isUpper * (oneOf isWordChar)∗
  | varid => oneOf (fun c => isLower c || c == '_') * (oneOf isWordChar)∗
  | operator => oneOf isOperatorChar * (oneOf isOperatorChar)∗
  | int => oneOf isDigit * (oneOf isDigit)∗
  | string => exactly "\"" * stringChar∗ * exactly "\""
  | newline => lineBreak * lineBreak∗
  | _ => 0

def language (k : Terminal) : Language Char :=
  match k.spelling? with
  | some s => exactly s
  | none => k.pattern

/-- The terminal by whose pattern another is read: keywords are read as variables or operators and
told apart by their text afterwards. -/
def scannedAs : Terminal → Terminal
  | kwModule | kwImport | kwData | kwPrimitive | kwInfixl | kwInfixr | kwInfix | kwClass | kwWhere
  | kwInstance | kwLet | kwIn | kwIf | kwThen | kwElse | kwCase | kwOf | wildcard => varid
  | equals | bar | arrow | fatArrow | doubleColon | backslash => operator
  | k => k

/-- A text of a terminal that none of what follows goes on with, neither as a text of this terminal
nor as one of the pattern that it is read by. -/
structure Longest (k : Terminal) (text r : List Char) : Prop where
  mem : text ∈ k.language
  stops : ∀ more, more ≠ [] → more <+: r →
    text ++ more ∉ k.language ∧ text ++ more ∉ k.scannedAs.language

-- Words of patterns

variable {l : Language Char} {p q : Char → Bool} {w cs r more : List Char} {s : String}

theorem append_mem_kstar (hw : w ∈ l) (hcs : cs ∈ l∗) : w ++ cs ∈ l∗ := by
  rw [← one_add_self_mul_kstar_eq_kstar]
  exact .inr (append_mem_mul hw hcs)

theorem kstar_induction {motive : List Char → Prop} (nil : motive [])
    (append : ∀ x ∈ l, ∀ y ∈ l∗, motive y → motive (x ++ y)) (h : w ∈ l∗) : motive w := by
  rw [mem_kstar] at h
  obtain ⟨words, rfl, hwords⟩ := h
  induction words with
  | nil => exact nil
  | cons x words ih =>
    obtain ⟨hx, hwords⟩ := List.forall_mem_cons.1 hwords
    exact append x hx _ (join_mem_kstar hwords) (ih hwords)

theorem mem_oneOf_kstar : w ∈ (oneOf p)∗ ↔ ∀ c ∈ w, p c = true := by
  refine ⟨fun h => ?_, fun h => ?_⟩
  · refine kstar_induction (motive := fun w => ∀ c ∈ w, p c = true) (List.forall_mem_nil _) ?_ h
    rintro _ ⟨c, hc, rfl⟩ cs - ih
    exact List.forall_mem_cons.2 ⟨hc, ih⟩
  · induction w with
    | nil => exact nil_mem_kstar _
    | cons c w ih =>
      obtain ⟨hc, hw⟩ := List.forall_mem_cons.1 h
      exact append_mem_kstar (w := [c]) ⟨c, hc, rfl⟩ (ih hw)

/-- Runs: one character to begin with, and any number of those that go on. -/
theorem mem_oneOf_mul_kstar :
    w ∈ oneOf p * (oneOf q)∗ ↔ ∃ c word, w = c :: word ∧ p c = true ∧ ∀ d ∈ word, q d = true := by
  rw [mem_mul]
  constructor
  · rintro ⟨_, ⟨c, hc, rfl⟩, word, hword, rfl⟩
    exact ⟨c, word, rfl, hc, mem_oneOf_kstar.1 hword⟩
  · rintro ⟨c, word, rfl, hc, hword⟩
    exact ⟨[c], ⟨c, hc, rfl⟩, word, mem_oneOf_kstar.2 hword, rfl⟩

/-- A text that is alone does not go on. -/
theorem append_not_mem_exactly (h : cs ∈ exactly s) (hmore : more ≠ []) :
    cs ++ more ∉ exactly s := by
  obtain rfl : cs = s.toList := h
  exact fun heq => hmore (List.append_right_eq_self.1 heq)

/-- A run does not go on with a character that is not of it. -/
theorem append_not_mem_run (hr : ∀ d ∈ r.head?, q d = false) (hcs : cs ≠ []) (hmore : more ≠ [])
    (hfollows : more <+: r) : cs ++ more ∉ oneOf p * (oneOf q)∗ := by
  intro hmem
  obtain ⟨c, word, heq, -, hword⟩ := mem_oneOf_mul_kstar.1 hmem
  obtain ⟨d, more, rfl⟩ := List.exists_cons_of_ne_nil hmore
  obtain ⟨r, rfl⟩ := hfollows
  obtain ⟨c', cs, rfl⟩ := List.exists_cons_of_ne_nil hcs
  obtain ⟨-, rfl⟩ := List.cons.inj heq
  have hq : q d = true := hword d (by simp)
  rw [hr d rfl] at hq
  cases hq

end Terminal

namespace Lex

open Terminal

variable {w cs r body : List Char}

-- Strings

theorem stringBody?_of_mem (h : w ∈ stringChar∗) (r : List Char) :
    stringBody? (w ++ '"' :: r) = some (w ++ ['"'], r) := by
  refine kstar_induction (motive := fun w => stringBody? (w ++ '"' :: r) = some (w ++ ['"'], r))
    ?_ ?_ h
  · rw [List.nil_append, stringBody?, List.nil_append]
  · rintro _ (⟨_, rfl, _, ⟨c, hc, rfl⟩, rfl⟩ | ⟨c, hc, rfl⟩) cs - ih
    · have hline : c ≠ '\n' := of_decide_eq_true hc
      change stringBody? ('\\' :: c :: (cs ++ '"' :: r)) = _
      rw [stringBody?, if_neg hline, ih]
      rfl
    · simp only [Bool.and_eq_true, decide_eq_true_eq] at hc
      obtain ⟨⟨hquote, hescape⟩, hline⟩ := hc
      rw [List.append_assoc, List.singleton_append, stringBody?.eq_5 _ _ hquote hline
        fun d _ h => absurd h hescape, if_neg hescape, ih]
      rfl

theorem mem_of_stringBody? (h : stringBody? cs = some (body, r)) :
    ∃ w ∈ stringChar∗, body = w ++ ['"'] := by
  fun_induction stringBody? cs generalizing body with
  | case1 => cases h
  | case2 cs =>
    cases h
    exact ⟨[], nil_mem_kstar _, rfl⟩
  | case3 => cases h
  | case4 => cases h
  | case5 c cs hc ih =>
    obtain ⟨⟨body, r⟩, hb, he⟩ := Option.map_eq_some_iff.mp h
    cases he
    obtain ⟨w, hw, rfl⟩ := ih hb
    have hbackslash : ['\\'] ∈ exactly "\\" := rfl
    have hescape : ['\\', c] ∈ stringChar :=
      .inl (append_mem_mul hbackslash ⟨c, decide_eq_true hc, rfl⟩)
    exact ⟨_, append_mem_kstar hescape hw, rfl⟩
  | case6 => cases h
  | case7 c cs hquote hline h3 hc ih =>
    obtain ⟨⟨body, r⟩, hb, he⟩ := Option.map_eq_some_iff.mp h
    cases he
    obtain ⟨w, hw, rfl⟩ := ih hb
    have hchar : [c] ∈ stringChar := by
      refine .inr ⟨c, ?_, rfl⟩
      simp only [Bool.and_eq_true, decide_eq_true_eq]
      exact ⟨⟨fun h => hquote h, hc⟩, fun h => hline h⟩
    exact ⟨_, append_mem_kstar hchar hw, rfl⟩

/-- A string is a quote and what is read as the rest of one, up to its end. -/
theorem mem_string : w ∈ string.language ↔
    ∃ body, w = '"' :: body ∧ stringBody? body = some (body, []) := by
  constructor
  · rintro ⟨_, ⟨_, rfl, w, hw, rfl⟩, _, rfl, rfl⟩
    exact ⟨w ++ ['"'], rfl, stringBody?_of_mem hw []⟩
  · rintro ⟨body, rfl, h⟩
    obtain ⟨w, hw, rfl⟩ := mem_of_stringBody? h
    have hquote : ['"'] ∈ exactly "\"" := rfl
    exact append_mem_mul (append_mem_mul hquote hw) hquote

-- Line ends

theorem isBreak_of_mem_kstar {l : Language Char} (hl : ∀ b ∈ l, IsBreak b) (h : w ∈ l∗) :
    IsBreak w :=
  kstar_induction (fun _ => rfl) (fun b hb _ _ ih => (hl b hb).append ih) h

theorem lineEnd_of_mem_lineBreak (h : w ∈ lineBreak) : LineEnd w := by
  obtain ⟨a, ha, indent, hindent, rfl⟩ := h
  have hbreak : IsBreak indent := by
    refine isBreak_of_mem_kstar ?_ hindent
    rintro _ ⟨c, hc, rfl⟩
    simp only [Bool.or_eq_true, beq_iff_eq] at hc
    rcases hc with rfl | rfl
    exacts [isBreak_tab, isBreak_space]
  rcases ha with rfl | rfl
  · exact LineEnd.newline.append hbreak
  · exact LineEnd.append ⟨isBreak_crlf, .inr (List.prefix_refl _)⟩ hbreak

/-- What can follow a line end is indentation and more line ends. -/
theorem breaks_mem (cs : List Char) :
    ∃ indent ∈ (oneOf fun c => c == '\t' || c == ' ')∗, ∃ more ∈ lineBreak∗,
      (breaks cs).1 = indent ++ more := by
  fun_induction breaks cs with
  | case1 cs ih =>
    obtain ⟨indent, hindent, more, hmore, heq⟩ := ih
    have hbreak : '\n' :: indent ∈ lineBreak := append_mem_mul (a := ['\n']) (.inl rfl) hindent
    exact ⟨[], nil_mem_kstar _, _, append_mem_kstar hbreak hmore, congrArg ('\n' :: ·) heq⟩
  | case2 cs ih =>
    obtain ⟨indent, hindent, more, hmore, heq⟩ := ih
    have hbreak : '\r' :: '\n' :: indent ∈ lineBreak :=
      append_mem_mul (a := ['\r', '\n']) (.inr rfl) hindent
    exact ⟨[], nil_mem_kstar _, _, append_mem_kstar hbreak hmore,
      congrArg ('\r' :: '\n' :: ·) heq⟩
  | case3 cs ih =>
    obtain ⟨indent, hindent, more, hmore, heq⟩ := ih
    have hspace : ' ' :: indent ∈ (oneOf fun c => c == '\t' || c == ' ')∗ :=
      append_mem_kstar (w := [' ']) ⟨' ', rfl, rfl⟩ hindent
    exact ⟨_, hspace, more, hmore, congrArg (' ' :: ·) heq⟩
  | case4 cs ih =>
    obtain ⟨indent, hindent, more, hmore, heq⟩ := ih
    have htab : '\t' :: indent ∈ (oneOf fun c => c == '\t' || c == ' ')∗ :=
      append_mem_kstar (w := ['\t']) ⟨'\t', rfl, rfl⟩ hindent
    exact ⟨_, htab, more, hmore, congrArg ('\t' :: ·) heq⟩
  | case5 => exact ⟨[], nil_mem_kstar _, [], nil_mem_kstar _, rfl⟩

/-- Line ends that one token can take together. -/
theorem mem_newline : w ∈ newline.language ↔ LineEnd w := by
  constructor
  · rintro ⟨b, hb, more, hmore, rfl⟩
    exact (lineEnd_of_mem_lineBreak hb).append
      (isBreak_of_mem_kstar (fun b hb => (lineEnd_of_mem_lineBreak hb).isBreak) hmore)
  · intro h
    have hmem {a cs : List Char} (ha : a ∈ exactly "\n" + exactly "\r\n") (hbreak : IsBreak a)
        (h : LineEnd (a ++ cs)) : a ++ cs ∈ newline.language := by
      have hcs : (breaks cs).1 = cs := by
        have hself := h.isBreak []
        rw [List.append_nil, hbreak] at hself
        simpa [breaks] using (Prod.mk.inj hself).1
      obtain ⟨indent, hindent, more, hmore, heq⟩ := breaks_mem cs
      rw [← hcs, heq, ← List.append_assoc]
      exact append_mem_mul (append_mem_mul ha hindent) hmore
    obtain ⟨cs, rfl⟩ | ⟨cs, rfl⟩ := h.start
    · exact hmem (.inl rfl) isBreak_newline h
    · exact hmem (.inr rfl) isBreak_crlf h

-- Pieces

/-- The text of a keyword is its only one, and its first character says how it is read. -/
theorem scannedAs_of_keyword? {text : String} {k : Terminal} (h : keyword? text = some k) :
    k.spelling? = some text ∧
      k.scannedAs =
        if text.toList.head?.any fun c => isLower c || c == '_' then varid else operator := by
  obtain ⟨before, after, hsplit, -⟩ := List.lookup_eq_some_iff.mp h
  have hall : ∀ x ∈ before ++ (text, k) :: after, x.2.spelling? = some x.1 ∧
      x.2.scannedAs =
        if x.1.toList.head?.any fun c => isLower c || c == '_' then varid else operator := by
    rw [← hsplit]
    decide
  exact hall (text, k) (by simp)

theorem longest_of_keyword? {k k' : Terminal} {text : List Char}
    (h : keyword? (String.ofList text) = some k)
    (hscan : k.scannedAs = k')
    (hstops : ∀ more, more ≠ [] → more <+: r → text ++ more ∉ k'.language) : Longest k text r := by
  have hk : k.language = exactly (String.ofList text) := by
    rw [language, (scannedAs_of_keyword? h).1]
  have hmem : text ∈ exactly (String.ofList text) := String.toList_ofList.symm
  refine ⟨hk ▸ hmem, fun more hmore hfollows => ⟨?_, hscan ▸ hstops more hmore hfollows⟩⟩
  rw [hk]
  exact append_not_mem_exactly hmem hmore

theorem longest_of_class? {c : Char} {inRun : Char → Bool} {kind : List Char → PieceKind}
    {k : Terminal} (hc : class? c = some (inRun, kind)) (hk : kind (c :: w) = .token k)
    (hword : ∀ d ∈ w, inRun d = true) (hr : ∀ d ∈ r.head?, inRun d = false) :
    Longest k (c :: w) r := by
  have hstops {p : Char → Bool} (more : List Char) (hmore : more ≠ []) (hfollows : more <+: r) :
      c :: w ++ more ∉ oneOf p * (oneOf inRun)∗ :=
    append_not_mem_run hr (List.cons_ne_nil c w) hmore hfollows
  -- the terminal has the pattern that the text is read by
  have hown {p : Char → Bool} (hp : p c = true) (hlanguage : k.language = oneOf p * (oneOf inRun)∗)
      (hscan : k.scannedAs = k) : Longest k (c :: w) r := by
    refine ⟨hlanguage ▸ mem_oneOf_mul_kstar.2 ⟨c, w, rfl, hp, hword⟩, fun more hmore hfollows => ?_⟩
    rw [hscan, hlanguage]
    exact ⟨hstops more hmore hfollows, hstops more hmore hfollows⟩
  cases class_of_class? hc with
  | blank => cases hk
  | conid hupper =>
    cases hk
    exact hown hupper rfl rfl
  | word hlower =>
    rcases kind_of_wordKind hk with rfl | hkeyword
    · exact hown (p := fun c => isLower c || c == '_') hlower rfl rfl
    · have hscan := (scannedAs_of_keyword? hkeyword).2
      rw [String.toList_ofList, List.head?_cons, Option.any_some, if_pos hlower] at hscan
      exact longest_of_keyword? hkeyword hscan hstops
  | int hdigit =>
    cases hk
    exact hown hdigit rfl rfl
  | operator hoperator hlower =>
    rcases kind_of_wordKind hk with rfl | hkeyword
    · exact hown hoperator rfl rfl
    · have hscan := (scannedAs_of_keyword? hkeyword).2
      rw [String.toList_ofList, List.head?_cons, Option.any_some, hlower] at hscan
      exact longest_of_keyword? hkeyword hscan hstops

/-- Tokens are as long as their terminals allow. -/
theorem IsPiece.longest {p : Piece} {k : Terminal} (h : IsPiece p r) (hk : p.kind = .token k) :
    Longest k p.text r := by
  cases h with
  | comment => cases hk
  | @newline text _ htext hr =>
    cases hk
    obtain ⟨hlineEnd, -⟩ := IsPiece.lineEnd (.newline htext hr) rfl
    have hstops (more : List Char) (hmore : more ≠ []) (hfollows : more <+: r) :
        text ++ more ∉ Terminal.newline.language := by
      intro hmem
      obtain ⟨r, rfl⟩ := hfollows
      have hall := (mem_newline.1 hmem).isBreak r
      rw [List.append_assoc, hr, List.append_assoc] at hall
      have hnil := List.append_right_eq_self.1 (Prod.mk.inj hall).1.symm
      exact hmore (List.append_eq_nil_iff.1 hnil).1
    exact ⟨mem_newline.2 hlineEnd, fun more hmore hfollows =>
      ⟨hstops more hmore hfollows, hstops more hmore hfollows⟩⟩
  | @string body _ hbody =>
    cases hk
    obtain ⟨-, hall⟩ := stringBody?_eq_some hbody
    have hstops (more : List Char) (hmore : more ≠ []) :
        '"' :: body ++ more ∉ Terminal.string.language := by
      intro hmem
      obtain ⟨longer, heq, hrest⟩ := mem_string.1 hmem
      obtain rfl : body ++ more = longer := (List.cons.inj heq).2
      rw [hall] at hrest
      exact hmore (Prod.mk.inj (Option.some.inj hrest)).2
    have hself := hall []
    rw [List.append_nil] at hself
    exact ⟨mem_string.2 ⟨body, rfl, hself⟩,
      fun more hmore _ => ⟨hstops more hmore, hstops more hmore⟩⟩
  | run hc hword hr => exact longest_of_class? hc hk hword hr
  | bracket hc =>
    cases hk
    unfold bracket? at hc
    split at hc <;> cases hc
    all_goals
      exact ⟨rfl, fun more hmore _ =>
        ⟨append_not_mem_exactly rfl hmore, append_not_mem_exactly rfl hmore⟩⟩

end Lex

-- Places

/-- The place behind a text: lines end with line feeds, and columns count characters. -/
def Position.behind (before : List Char) : Position :=
  ⟨1 + before.count '\n', 1 + (before.reverse.takeWhile (· ≠ '\n')).length⟩

theorem Position.first_after (before : List Char) : first.after before = behind before := by
  induction before using List.reverseRecOn with
  | nil => rfl
  | append_singleton before c ih =>
    rw [after_append, ih, behind, behind, List.count_append, List.reverse_append]
    simp only [after, List.foldl_cons, List.foldl_nil, next]
    split
    · next hc =>
      subst hc
      rfl
    · next hc =>
      rw [List.count_singleton, if_neg (by simpa using hc), List.reverse_singleton,
        List.singleton_append, List.takeWhile_cons_of_pos (by simpa using hc), List.length_cons]
      rfl

namespace Lex

open Terminal

/-- Text that is not part of a token: blanks and comments. -/
def skipped : Language Char := oneOf isSpace * (oneOf isSpace)∗ + exactly "--" * (oneOf (· ≠ '\n'))∗

inductive Stretch
  | skip (text : List Char)
  | token (t : Token)

namespace Stretch

def text : Stretch → List Char
  | skip text => text
  | token t => t.text.toList

def token? : Stretch → Option Token
  | skip _ => none
  | token t => some t

/-- A stretch between the texts `before` and `r`. A token lies where its text lies and is as long as
its terminal allows. -/
def Fits (before r : List Char) : Stretch → Prop
  | skip text => text ∈ skipped
  | token t => t.region = ⟨.behind before, .behind (before ++ t.text.toList)⟩ ∧
      Longest t.kind t.text.toList r

end Stretch

variable {before cs r source : List Char} {p : Piece}

theorem IsPiece.mem_skipped (h : IsPiece p r) (hk : ∀ k, p.kind ≠ .token k) : p.text ∈ skipped := by
  cases h with
  | comment hbody =>
    exact .inr (append_mem_mul (a := ['-', '-']) rfl
      (mem_oneOf_kstar.2 fun c hc => decide_eq_true (hbody c hc)))
  | newline | string | bracket => exact absurd rfl (hk _)
  | @run c word _ _ _ hc hword =>
    cases class_of_class? hc with
    | blank hspace => exact .inl (mem_oneOf_mul_kstar.2 ⟨c, word, rfl, hspace, hword⟩)
    | conid | word | int | operator => exact absurd rfl (hk _)

/-- A piece is a stretch where it stands. -/
theorem IsPiece.exists_stretch (h : IsPiece p r) (before : List Char) (ps : List Piece) :
    ∃ s : Stretch, s.text = p.text ∧ s.Fits before r ∧
      tokensFrom (.behind before) (p :: ps) =
        s.token?.toList ++ tokensFrom (.behind (before ++ p.text)) ps := by
  obtain ⟨kind, text⟩ := p
  have hafter : (Position.behind before).after text = .behind (before ++ text) := by
    rw [← Position.first_after, ← Position.after_append, Position.first_after]
  cases kind with
  | token k =>
    refine ⟨.token ⟨k, String.ofList text, ⟨.behind before, .behind (before ++ text)⟩⟩,
      String.toList_ofList, ⟨?_, ?_⟩, ?_⟩
    · rw [String.toList_ofList]
    · rw [String.toList_ofList]
      exact h.longest rfl
    · rw [tokensFrom, hafter]
      rfl
  | blank | comment =>
    refine ⟨.skip text, rfl, h.mem_skipped fun k => by simp, ?_⟩
    simp only [tokensFrom, hafter]
    rfl

/-- The stretches of a text that stands behind another and is all made of pieces. -/
theorem exists_stretches (cs before : List Char) (h : (pieces cs).2 = []) :
    ∃ ss : List Stretch, ss.flatMap Stretch.text = cs ∧
      ss.filterMap Stretch.token? = tokensFrom (.behind before) (pieces cs).1 ∧
      ∀ left s right, ss = left ++ s :: right →
        s.Fits (before ++ left.flatMap Stretch.text) (right.flatMap Stretch.text) := by
  induction cs using pieces_induction generalizing before with
  | none cs hnone =>
    rw [pieces_of_none hnone] at h ⊢
    obtain rfl : cs = [] := h
    exact ⟨[], rfl, rfl, fun left s right heq => by simp at heq⟩
  | some p r hp ih =>
    rw [pieces_append hp] at h ⊢
    obtain ⟨s, htext, hfits, htokens⟩ := hp.exists_stretch before (pieces r).1
    obtain ⟨ss, hss, hsstokens, hall⟩ := ih (before ++ p.text) h
    refine ⟨s :: ss, ?_, ?_, fun left s' right heq => ?_⟩
    · rw [List.flatMap_cons, hss, htext]
    · rw [htokens, ← hsstokens]
      cases s <;> rfl
    · rcases List.cons_eq_append_iff.1 heq with ⟨rfl, hsplit⟩ | ⟨left, rfl, hsplit⟩
      · obtain ⟨rfl, rfl⟩ := List.cons.inj hsplit
        rw [hss]
        simpa using hfits
      · have hfits' := hall left s' right hsplit
        rwa [← htext, List.append_assoc, ← List.flatMap_cons] at hfits'

/-- A text that is lexed to its end is tiled by its tokens and what is skipped between them. Each
token has the place of its text and cannot be longer. -/
theorem lex_tiles (h : (lex source).failure = none) :
    ∃ ss : List Stretch, ss.flatMap Stretch.text = source ∧
      ss.filterMap Stretch.token? = (lex source).tokens ∧
      ∀ before s after, ss = before ++ s :: after →
        s.Fits (before.flatMap Stretch.text) (after.flatMap Stretch.text) := by
  have hrest : (pieces source).2 = [] := by
    rw [lex, Option.map_eq_none_iff, List.head?_eq_none_iff] at h
    exact h
  exact exists_stretches source [] hrest

/-- Lines, comments, a string with an escape, keywords and an operator. -/
def tiledText : List Char := "f x = -- a\n\n  case \"\\\"\" |-- of".toList

theorem tiles_tiledText :
    (lex tiledText).failure = none ∧
    ∃ ss : List Stretch, ss.flatMap Stretch.text = tiledText ∧
      ss.filterMap Stretch.token? = (lex tiledText).tokens ∧
      ∀ before s after, ss = before ++ s :: after →
        s.Fits (before.flatMap Stretch.text) (after.flatMap Stretch.text) :=
  have h : (lex tiledText).failure = none := by decide
  ⟨h, lex_tiles h⟩

end Lex

end TypeLens
