import Mathlib.Data.List.Induction
import TypeLens.Layout
import TypeLens.Proofs.Lex.Pieces

/-!
Lines of blanks and comments. Such a line splits the line end before it into several, of which the
last one indents as the whole did.
-/

namespace TypeLens

open Layout

-- Positions and last lines

variable {a b cs : List Char}

theorem Layout.lastLine_append_of_mem (h : '\n' ∈ b) : lastLine (a ++ b) = lastLine b := by
  have hstop : (b.reverse.takeWhile (· ≠ '\n')).length ≠ b.reverse.length := fun hall => by
    have := List.takeWhile_eq_self_iff.mp ((List.takeWhile_prefix _).eq_of_length hall)
    simpa using this '\n' (by simpa using h)
  rw [lastLine, lastLine, List.reverse_append, List.takeWhile_append, if_neg hstop]

theorem Layout.lastLine_append_of_not_mem (h : '\n' ∉ b) :
    lastLine (a ++ b) = lastLine a ++ b := by
  have hall : ∀ c ∈ b.reverse, decide (c ≠ '\n') = true := fun c hc => by
    simpa using ne_of_mem_of_not_mem (List.mem_reverse.mp hc) h
  rw [lastLine, lastLine, List.reverse_append, List.takeWhile_append_of_pos hall,
    List.reverse_append, List.reverse_reverse]

theorem Layout.lastLine_of_not_mem (h : '\n' ∉ b) : lastLine b = b :=
  lastLine_append_of_not_mem (a := []) h

theorem Layout.not_mem_lastLine (a : List Char) : '\n' ∉ lastLine a := fun h => by
  have := List.mem_takeWhile_imp (List.mem_reverse.mp h)
  simp at this

theorem Layout.exists_eq_lastLine (h : '\n' ∈ a) : ∃ b, a = b ++ '\n' :: lastLine a := by
  induction a using List.reverseRecOn with
  | nil => exact absurd h List.not_mem_nil
  | append_singleton a c ih =>
    by_cases hc : c = '\n'
    · exact ⟨a, by rw [hc, lastLine_append_of_mem (List.mem_singleton_self _)]; rfl⟩
    · have ha : '\n' ∈ a := by simpa [Ne.symm hc] using h
      obtain ⟨b, hb⟩ := ih ha
      refine ⟨b, ?_⟩
      rw [lastLine_append_of_not_mem (by simpa using Ne.symm hc), ← List.cons_append,
        ← List.append_assoc, ← hb]

theorem Position.after_append (p : Position) (a b : List Char) :
    p.after (a ++ b) = (p.after a).after b := List.foldl_append

theorem Position.after_of_not_mem (p : Position) (h : '\n' ∉ b) :
    p.after b = ⟨p.line, p.column + b.length⟩ := by
  induction b generalizing p with
  | nil => rfl
  | cons c b ih =>
    rw [List.mem_cons, not_or] at h
    rw [after, List.foldl_cons, ← after, ih _ h.2, next, if_neg (Ne.symm h.1), List.length_cons]
    simp only [Position.mk.injEq, true_and]
    omega

/-- After a line end, a column counts from the last one. -/
theorem Position.column_after (p : Position) (h : '\n' ∈ b) :
    (p.after b).column = (lastLine b).length + 1 := by
  obtain ⟨a, ha⟩ := exists_eq_lastLine h
  have hafter : p.after b = ((p.after a).next '\n').after (lastLine b) := by
    rw [ha, after_append, ← ha]
    rfl
  rw [hafter, after_of_not_mem _ (not_mem_lastLine b)]
  simp only [next, if_pos, Nat.add_comm]

theorem Position.line_le_after (p : Position) (b : List Char) : p.line ≤ (p.after b).line := by
  induction b generalizing p with
  | nil => exact le_refl _
  | cons c b ih =>
    refine le_trans ?_ (ih (p.next c))
    unfold next
    split <;> simp

namespace Lex

variable {x y r : List Char} {p : Piece}

-- Line ends

/-- Line ends and indentation that any others can go on from. -/
def IsBreak (b : List Char) : Prop := ∀ y, breaks (b ++ y) = (b ++ (breaks y).1, (breaks y).2)

theorem IsBreak.append (ha : IsBreak a) (hb : IsBreak b) : IsBreak (a ++ b) := fun y => by
  rw [List.append_assoc, ha, hb, List.append_assoc]

theorem isBreak_newline : IsBreak ['\n'] := fun y => by
  rw [List.singleton_append, breaks]
  rfl

theorem isBreak_crlf : IsBreak ['\r', '\n'] := fun y => by
  rw [List.cons_append, List.singleton_append, breaks]
  rfl

theorem isBreak_space : IsBreak [' '] := fun y => by
  rw [List.singleton_append, breaks]
  rfl

theorem isBreak_tab : IsBreak ['\t'] := fun y => by
  rw [List.singleton_append, breaks]
  rfl

theorem isBreak_replicate (n : Nat) : IsBreak (List.replicate n ' ') := by
  induction n with
  | zero => exact fun _ => rfl
  | succ n ih => exact isBreak_space.append ih

theorem isBreak_breaks (x : List Char) : IsBreak (breaks x).1 := by
  fun_induction breaks x with
  | case1 cs ih => exact isBreak_newline.append ih
  | case2 cs ih => exact isBreak_crlf.append ih
  | case3 cs ih => exact isBreak_space.append ih
  | case4 cs ih => exact isBreak_tab.append ih
  | case5 => exact fun _ => rfl

theorem breaks_breaks (x : List Char) : breaks (breaks x).2 = ([], (breaks x).2) := by
  have h := isBreak_breaks x (breaks x).2
  rw [breaks_append, Prod.ext_iff] at h
  exact Prod.ext (by simpa using h.1) h.2.symm

/-- Line ends are taken together, up to what is none. -/
structure LineEnd (b : List Char) : Prop where
  isBreak : IsBreak b
  start : ['\n'] <+: b ∨ ['\r', '\n'] <+: b

theorem LineEnd.mem (h : LineEnd b) : '\n' ∈ b := by
  rcases h.start with h | h <;> exact h.subset (by simp)

theorem LineEnd.append (h : LineEnd a) (hb : IsBreak b) : LineEnd (a ++ b) :=
  ⟨h.isBreak.append hb, h.start.imp (·.trans (List.prefix_append a b))
    (·.trans (List.prefix_append a b))⟩

theorem LineEnd.newline : LineEnd ['\n'] := ⟨isBreak_newline, .inl (List.prefix_refl _)⟩

theorem LineEnd.isPiece (h : LineEnd b) (hr : breaks r = ([], r)) :
    IsPiece ⟨.token .newline, b⟩ r := .newline h.start (by rw [h.isBreak, hr, List.append_nil])

theorem IsPiece.lineEnd (h : IsPiece p r) (hk : p.kind = .token .newline) :
    LineEnd p.text ∧ breaks r = ([], r) := by
  cases h with
  | comment | string => cases hk
  | run hc => exact absurd (by simp) (kind_ne_of_class? hc hk)
  | bracket hc =>
    cases hk
    unfold bracket? at hc
    split at hc <;> cases hc
  | @newline text _ htext hr =>
    have htext' : IsBreak text := by
      have := isBreak_breaks (text ++ r)
      rwa [hr] at this
    have hrest := breaks_breaks (text ++ r)
    rw [hr] at hrest
    exact ⟨⟨htext', htext⟩, hrest⟩

theorem not_mem_stringBody? {body : List Char} (h : stringBody? x = some (body, r)) :
    '\n' ∉ body := by
  fun_induction stringBody? x generalizing body with
  | case1 => cases h
  | case2 cs =>
    cases h
    decide
  | case3 => cases h
  | case4 => cases h
  | case5 c cs hc ih =>
    obtain ⟨⟨body, r⟩, hb, he⟩ := Option.map_eq_some_iff.mp h
    cases he
    simpa [Ne.symm hc] using ih hb
  | case6 => cases h
  | case7 c cs h1 h2 h3 hc ih =>
    obtain ⟨⟨body, r⟩, hb, he⟩ := Option.map_eq_some_iff.mp h
    cases he
    have hn : '\n' ≠ c := fun hn => h2 hn.symm
    simpa [hn] using ih hb

theorem not_inRun_newline {c : Char} {inRun : Char → Bool} {kind : List Char → PieceKind}
    (h : class? c = some (inRun, kind)) : inRun '\n' = false := by
  cases class_of_class? h <;> rfl

/-- Only line ends cross lines. -/
theorem IsPiece.not_mem (h : IsPiece p r) (hk : p.kind ≠ .token .newline) : '\n' ∉ p.text := by
  cases h with
  | comment hbody => simpa using fun hn => hbody _ hn rfl
  | newline => exact absurd rfl hk
  | string hr => simpa using not_mem_stringBody? hr
  | run hc hword =>
    have hstop := not_inRun_newline hc
    have hn := (ne_of_class? hc).1
    simp only [List.mem_cons, not_or]
    refine ⟨Ne.symm hn, fun hmem => ?_⟩
    rw [hword _ hmem] at hstop
    cases hstop
  | bracket hc => simpa using Ne.symm (of_bracket? hc).1

/-- What begins no line end. -/
theorem breaks_of_ne {c : Char} {cs : List Char} (hspace : c ≠ ' ') (htab : c ≠ '\t')
    (hline : ¬ (['\n'] <+: c :: cs ∨ ['\r', '\n'] <+: c :: cs)) :
    breaks (c :: cs) = ([], c :: cs) := by
  simp only [List.cons_prefix_cons, List.nil_prefix, and_true, not_or] at hline
  refine breaks.eq_5 _ (fun d hd => ?_) (fun d hd => ?_) (fun d hd => ?_) (fun d hd => ?_)
  all_goals obtain ⟨rfl, rfl⟩ := List.cons.inj hd
  · exact hline.1 rfl
  · exact hline.2 (by simp)
  · exact hspace rfl
  · exact htab rfl

-- Inert lines

/-- Spaces, and perhaps a comment. -/
inductive Inert : List Char → Prop
  | spaces (n : Nat) : Inert (List.replicate n ' ')
  | comment (n : Nat) {body : List Char} (hbody : ∀ c ∈ body, c ≠ '\n') :
      Inert (List.replicate n ' ' ++ '-' :: '-' :: body)

/-- The second text has lines put in that are inert, each at the start of a line; `start` says
whether the texts start a line. The last line of a text may go without a line feed. -/
inductive WithLines : Bool → List Char → List Char → Prop
  | nil {start : Bool} : WithLines start [] []
  | char {start : Bool} {c : Char} {x y : List Char} (h : WithLines (c == '\n') x y) :
      WithLines start (c :: x) (c :: y)
  | line {l x y : List Char} (hl : Inert l) (h : WithLines true x y) :
      WithLines true x (l ++ '\n' :: y)
  | last {l : List Char} (hl : Inert l) : WithLines true [] l

namespace WithLines

/-- Before lines are put in, there can be another line. -/
theorem after {start : Bool} (h : WithLines true x y) (a : List Char) :
    WithLines start (a ++ '\n' :: x) (a ++ '\n' :: y) := by
  induction a generalizing start with
  | nil => exact .char h
  | cons c a ih => exact .char ih

theorem head?_eq (h : WithLines false x y) : x.head? = y.head? := by
  cases h <;> rfl

/-- Within a line nothing is put in. -/
theorem of_append {a : List Char} (ha : '\n' ∉ a) (h : WithLines false (a ++ x) y) :
    ∃ y', y = a ++ y' ∧ WithLines false x y' := by
  induction a generalizing y with
  | nil => exact ⟨y, rfl, h⟩
  | cons c a ih =>
    rw [List.mem_cons, not_or] at ha
    cases h with
    | char h =>
      rw [show (c == '\n') = false by simpa using Ne.symm ha.1] at h
      obtain ⟨y', rfl, h'⟩ := ih ha.2 h
      exact ⟨y', rfl, h'⟩

theorem of_append_right {a : List Char} (ha : '\n' ∉ a) (h : WithLines false x (a ++ y)) :
    ∃ x', x = a ++ x' ∧ WithLines false x' y := by
  induction a generalizing x with
  | nil => exact ⟨x, rfl, h⟩
  | cons c a ih =>
    rw [List.mem_cons, not_or] at ha
    cases h with
    | char h =>
      rw [show (c == '\n') = false by simpa using Ne.symm ha.1] at h
      obtain ⟨x', rfl, h'⟩ := ih ha.2 h
      exact ⟨x', rfl, h'⟩

end WithLines

/-- Line ends and comments, the last of which indents by `l` and stands before `r` with lines put in;
or nothing else, if nothing is left of `r`. -/
inductive Gap (r l : List Char) : List Char → Prop
  | last {n y : List Char} (h : IsPiece ⟨.token .newline, n⟩ y) (hn : lastLine n = l)
      (hy : WithLines false r y) : Gap r l (n ++ y)
  | done (hr : r = []) : Gap r l []
  | newline {n y : List Char} (h : IsPiece ⟨.token .newline, n⟩ y) (hg : Gap r l y) :
      Gap r l (n ++ y)
  | comment {c y : List Char} (h : IsPiece ⟨.comment, c⟩ y) (hg : Gap r l y) : Gap r l (c ++ y)

variable {l m : List Char}

theorem isPiece_before_comment (hb : LineEnd b) (n : Nat) (cs : List Char) :
    IsPiece ⟨.token .newline, b ++ List.replicate n ' '⟩ ('-' :: '-' :: cs) :=
  (hb.append (isBreak_replicate n)).isPiece (breaks_of_ne (by decide) (by decide) (by simp))

theorem lastLine_newline (a : List Char) : lastLine (a ++ ['\n']) = [] :=
  lastLine_append_of_mem (List.mem_singleton_self _)

/-- An inert line goes on with a line end, or ends it and begins another one. -/
theorem Gap.line (hm : Inert m) (hb : LineEnd b)
    (hg : ∀ b', LineEnd b' → lastLine b' = [] → Gap r l (b' ++ y)) :
    Gap r l (b ++ (m ++ '\n' :: y)) := by
  cases hm with
  | spaces n =>
    have hb' := (hb.append (isBreak_replicate n)).append isBreak_newline
    simpa using hg _ hb' (lastLine_newline _)
  | @comment n body hbody =>
    have hcomment : IsPiece ⟨.comment, '-' :: '-' :: body⟩ (['\n'] ++ y) := .comment hbody (by simp)
    have hrest := Gap.comment hcomment (hg ['\n'] .newline (lastLine_newline []))
    simpa using Gap.newline (isPiece_before_comment hb n _) hrest

theorem Gap.lastLine (hm : Inert m) (hb : LineEnd b) : Gap [] l (b ++ m) := by
  cases hm with
  | spaces n =>
    have hpiece := (hb.append (isBreak_replicate n)).isPiece (r := []) rfl
    simpa using Gap.newline (l := l) hpiece (.done rfl)
  | @comment n body hbody =>
    have hcomment : IsPiece ⟨.comment, '-' :: '-' :: body⟩ [] := .comment hbody (by simp)
    have hrest := Gap.comment (l := l) hcomment (.done rfl)
    simpa using Gap.newline (isPiece_before_comment hb n _) hrest

/-- Inert lines split what is left of a line end, of which `a` has been taken from one text and `b`
from the other. -/
theorem WithLines.gap {start : Bool} {c : List Char} (h : WithLines start x y) (hb : LineEnd b)
    (hlast : Layout.lastLine b = Layout.lastLine a)
    (hstart : start = true → Layout.lastLine a = []) (htab : '\t' ∉ x) (hx : breaks x = (c, r)) :
    Gap r (Layout.lastLine (a ++ c)) (b ++ y) := by
  induction hn : y.length using Nat.strong_induction_on generalizing start x y a b c with
  | _ n ih =>
    cases h with
    | nil =>
      cases hx
      rw [List.append_nil a]
      exact .last (hb.isPiece rfl) hlast .nil
    | line hm h =>
      refine .line hm hb fun b' hb' hl' => ih _ ?_ h hb' ?_ hstart htab hx rfl
      · simp at hn
        omega
      · rw [hl', hstart rfl]
    | last hm =>
      cases hx
      exact .lastLine hm hb
    | @char _ d x y h =>
      -- what both texts have of the line end is taken from them
      have both {e x' y' : List Char} {start' : Bool} (he : IsBreak e) (hpos : e ≠ [])
          (hdx : d :: x = e ++ x') (hdy : d :: y = e ++ y') (h' : WithLines start' x' y')
          (hlast' : Layout.lastLine (b ++ e) = Layout.lastLine (a ++ e))
          (hstart' : start' = true → Layout.lastLine (a ++ e) = []) :
          Gap r (Layout.lastLine (a ++ c)) (b ++ d :: y) := by
        rw [hdx, he] at hx
        cases hx
        have hlt : y'.length < n := by
          have := congrArg List.length hdy
          have := List.length_pos_iff.mpr hpos
          simp only [List.length_append] at *
          omega
        have htab' : '\t' ∉ x' := fun hmem => htab (by simp [hdx, hmem])
        have := ih _ hlt h' (hb.append he) hlast' hstart' htab' rfl rfl
        rwa [hdy, ← List.append_assoc a, ← List.append_assoc b]
      rw [List.mem_cons, not_or] at htab
      by_cases hspace : d = ' '
      · subst d
        refine both isBreak_space (by simp) rfl rfl h ?_ (by simp)
        rw [lastLine_append_of_not_mem (by decide), lastLine_append_of_not_mem (by decide), hlast]
      by_cases hline : d = '\n'
      · subst d
        refine both isBreak_newline (by simp) rfl rfl h ?_ fun _ => lastLine_newline a
        rw [lastLine_newline, lastLine_newline]
      by_cases hcrlf : d = '\r' ∧ ['\n'] <+: x
      · obtain ⟨rfl, x, rfl⟩ := hcrlf
        rw [List.singleton_append] at h
        obtain ⟨y, rfl, h'⟩ : ∃ y', y = '\n' :: y' ∧ WithLines true x y' := by
          cases h with
          | char h => exact ⟨_, rfl, h⟩
        have hend (z : List Char) : Layout.lastLine (z ++ ['\r', '\n']) = [] :=
          lastLine_append_of_mem (by decide)
        exact both isBreak_crlf (by simp) rfl rfl h' (by rw [hend, hend]) fun _ => hend a
      · have hother : ∀ z : List Char, x.head? = z.head? → breaks (d :: z) = ([], d :: z) := by
          intro z hz
          refine breaks_of_ne hspace (Ne.symm htab.1) ?_
          rintro (⟨_, hd⟩ | ⟨z', hd⟩)
          · exact hline (List.cons.inj hd).1.symm
          · obtain ⟨hcr, rfl⟩ := List.cons.inj hd
            refine hcrlf ⟨hcr.symm, ?_⟩
            cases x <;> simp_all
        rw [hother x rfl] at hx
        cases hx
        rw [List.append_nil a]
        have hhead : x.head? = y.head? := by
          rw [show (d == '\n') = false by simpa using hline] at h
          exact h.head?_eq
        exact .last (hb.isPiece (hother y hhead)) hlast (.char h)

theorem isPiece_breaks (h : ['\n'] <+: x ∨ ['\r', '\n'] <+: x) :
    IsPiece ⟨.token .newline, (breaks x).1⟩ (breaks x).2 := by
  refine .newline ?_ (by rw [breaks_append])
  rcases h with ⟨x, rfl⟩ | ⟨x, rfl⟩ <;> simp [breaks]

namespace WithLines

/-- A line end within a line becomes a gap. -/
theorem gap_of_lineEnd {n : List Char} (h : WithLines false (n ++ r) y) (hn : LineEnd n)
    (hr : breaks r = ([], r)) (htab : '\t' ∉ n ++ r) : Gap r (Layout.lastLine n) y := by
  have hbreaks : breaks (n ++ r) = (n, r) := by rw [hn.isBreak, hr, List.append_nil]
  rcases hn.start with ⟨n, rfl⟩ | ⟨n, rfl⟩
  · rw [List.append_assoc, List.singleton_append] at h
    rw [List.append_assoc, isBreak_newline] at hbreaks
    cases h with
    | char h =>
      refine h.gap .newline rfl (fun _ => lastLine_newline []) ?_ ?_
      · simpa using htab
      · simpa [Prod.ext_iff] using hbreaks
  · rw [List.append_assoc, List.cons_append, List.singleton_append] at h
    rw [List.append_assoc, isBreak_crlf] at hbreaks
    cases h with
    | char h =>
      cases h with
      | char h =>
        refine h.gap ⟨isBreak_crlf, .inr (List.prefix_refl _)⟩ rfl
          (fun _ => lastLine_newline ['\r']) ?_ ?_
        · simpa using htab
        · simpa [Prod.ext_iff] using hbreaks

/-- No piece is lost. -/
theorem piece?_eq_none (h : WithLines false x y) (hx : piece? x = none) : piece? y = none := by
  rw [Option.eq_none_iff_forall_ne_some]
  rintro ⟨p, r⟩ hy
  obtain ⟨rfl, hp⟩ := piece?_eq_some_iff.mp hy
  by_cases hk : p.kind = .token .newline
  · obtain ⟨hn, -⟩ := hp.lineEnd hk
    suffices hline : ['\n'] <+: x ∨ ['\r', '\n'] <+: x by
      have := piece?_of_isPiece (isPiece_breaks hline)
      rw [breaks_append, hx] at this
      cases this
    rcases hn.start with ⟨n, hn⟩ | ⟨n, hn⟩
    · rw [← hn, List.append_assoc, List.singleton_append] at h
      cases h with
      | char h => exact .inl (by simp)
    · rw [← hn, List.append_assoc, List.cons_append, List.singleton_append] at h
      cases h with
      | char h =>
        cases h with
        | char h => exact .inr (by simp)
  · obtain ⟨x', rfl, h'⟩ := h.of_append_right (hp.not_mem hk)
    rw [piece?_of_isPiece (hp.congr hk h'.head?_eq.symm)] at hx
    cases hx

end WithLines

end Lex

end TypeLens
