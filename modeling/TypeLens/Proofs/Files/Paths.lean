import TypeLens.Proofs.Files.Names

/-!
Paths that lead to the same place. They may be spelled in several ways, with detours or without; what
is found next to a file does not depend on the spelling of its path.
-/

namespace TypeLens

namespace Text

variable {c : Char} {cs w : List Char}

theorem not_mem_of_mem_splitOn (hw : w ∈ splitOn c cs) : c ∉ w := by
  induction cs generalizing w with
  | nil =>
    rw [splitOn, List.mem_singleton] at hw
    exact hw ▸ List.not_mem_nil
  | cons d cs ih =>
    rw [splitOn] at hw
    split at hw
    · rcases List.mem_cons.1 hw with rfl | hw
      · exact List.not_mem_nil
      · exact ih hw
    next hd =>
    have hne : c ≠ d := fun h => hd h.symm
    split at hw
    · obtain rfl := List.mem_singleton.1 hw
      simpa using hne
    next p ps hsplit =>
    rw [hsplit] at ih
    rcases List.mem_cons.1 hw with rfl | hw
    · rw [List.mem_cons, not_or]
      exact ⟨hne, ih (List.mem_cons_self ..)⟩
    · exact ih (List.mem_cons_of_mem p hw)

theorem splitOn_append (h : c ∉ w) (cs : List Char) :
    splitOn c (w ++ c :: cs) = w :: splitOn c cs := by
  induction w with
  | nil => exact if_pos rfl
  | cons d w ih =>
    rw [List.mem_cons, not_or] at h
    rw [List.cons_append, splitOn, if_neg (Ne.symm h.1), ih h.2]

theorem splitOn_intercalate {ws : List (List Char)} (hne : ws ≠ []) (h : ∀ w ∈ ws, c ∉ w) :
    splitOn c ([c].intercalate ws) = ws := by
  induction ws with
  | nil => exact absurd rfl hne
  | cons w ws ih =>
    obtain ⟨hw, hws⟩ := List.forall_mem_cons.1 h
    cases ws with
    | nil =>
      rw [List.intercalate_singleton]
      exact splitOn_of_not_mem hw
    | cons v ws =>
      rw [List.intercalate_cons_cons, List.append_assoc, List.singleton_append, splitOn_append hw,
        ih (List.cons_ne_nil _ _) hws]

end Text

namespace Path

/-- The path is one that a text can say. -/
structure Proper (p : Path) : Prop where
  slashes : p.slashes ≤ 2
  parts : ∀ part ∈ p.parts, isComponent part = true ∧ '/' ∉ part.toList

variable {p q : Path}

theorem proper_ofString (s : String) : (ofString s).Proper := by
  refine ⟨?_, fun part hpart => ?_⟩
  · show (if _ ≤ 2 then _ else 1) ≤ 2
    split <;> omega
  · obtain ⟨hmem, hcomponent⟩ := List.mem_filter.1 hpart
    obtain ⟨w, hw, rfl⟩ := List.mem_map.1 hmem
    refine ⟨hcomponent, ?_⟩
    rw [String.toList_ofList]
    exact Text.not_mem_of_mem_splitOn hw

theorem toList_ne_nil_of_isComponent {part : String} (h : isComponent part = true) :
    part.toList ≠ [] := by
  intro hnil
  obtain rfl : part = "" := String.toList_injective hnil
  cases h

theorem filter_splitOn_replicate (n : Nat) (cs : List Char) :
    ((Text.splitOn '/' (List.replicate n '/' ++ cs)).map String.ofList).filter isComponent =
      ((Text.splitOn '/' cs).map String.ofList).filter isComponent := by
  induction n with
  | zero => rfl
  | succ n ih =>
    rw [List.replicate_succ, List.cons_append, Text.splitOn, if_pos rfl, List.map_cons,
      List.filter_cons_of_neg (by decide), ih]

theorem takeWhile_replicate_append {n : Nat} {cs : List Char} (h : cs.head? ≠ some '/') :
    (List.replicate n '/' ++ cs).takeWhile (· == '/') = List.replicate n '/' := by
  induction n with
  | zero =>
    cases cs with
    | nil => rfl
    | cons d cs => exact List.takeWhile_cons_of_neg (by simpa using h)
  | succ n ih =>
    rw [List.replicate_succ, List.cons_append, List.takeWhile_cons_of_pos (by decide), ih]

/-- What a path is rendered as is read as the same path. -/
theorem ofString_render (h : p.Proper) : ofString p.render = p := by
  obtain ⟨n, parts⟩ := p
  obtain ⟨hn, hparts⟩ := h
  dsimp only at hn hparts
  have hcomponents : ∀ part ∈ parts, '/' ∉ part.toList := fun part hpart => (hparts part hpart).2
  by_cases hempty : n = 0 ∧ parts = []
  · obtain ⟨rfl, rfl⟩ := hempty
    decide
  have hrender : (Path.mk n parts).render.toList =
      List.replicate n '/' ++ ['/'].intercalate (parts.map String.toList) := by
    rw [render, if_neg hempty, String.toList_append, String.toList_ofList, String.toList_intercalate]
    rfl
  have hhead : (['/'].intercalate (parts.map String.toList)).head? ≠ some '/' := by
    cases parts with
    | nil => simp
    | cons part parts =>
      obtain ⟨hcomponent, hslash⟩ := hparts part (List.mem_cons_self ..)
      have hfirst : ∃ cs, ['/'].intercalate ((part :: parts).map String.toList) =
          part.toList ++ cs := by
        cases parts with
        | nil => exact ⟨[], by simp⟩
        | cons v vs => exact ⟨_, by rw [List.map_cons, List.map_cons, List.intercalate_cons_cons,
            List.append_assoc]⟩
      obtain ⟨cs, hcs⟩ := hfirst
      rw [hcs]
      cases hlist : part.toList with
      | nil => exact absurd hlist (toList_ne_nil_of_isComponent hcomponent)
      | cons d ds =>
        rw [hlist, List.mem_cons, not_or] at hslash
        simpa using Ne.symm hslash.1
  have hwords : ((Text.splitOn '/' (['/'].intercalate (parts.map String.toList))).map
      String.ofList).filter isComponent = parts := by
    by_cases hnil : parts = []
    · subst hnil
      rfl
    rw [Text.splitOn_intercalate (by simpa using hnil) (by simpa using hcomponents), List.map_map]
    have hid : String.ofList ∘ String.toList = id := funext fun s => String.ofList_toList
    rw [hid, List.map_id]
    exact List.filter_eq_self.2 fun part hpart => (hparts part hpart).1
  unfold ofString components Text.splitString
  rw [hrender, takeWhile_replicate_append hhead, List.length_replicate, filter_splitOn_replicate,
    hwords]
  dsimp only
  rw [if_pos hn]

theorem Proper.join (hp : p.Proper) (hq : q.Proper) : (p.join q).Proper := by
  unfold Path.join
  split
  · exact ⟨hp.slashes, List.forall_mem_append.2 ⟨hp.parts, hq.parts⟩⟩
  · exact hq

theorem Proper.parent (hp : p.Proper) : p.parent.Proper :=
  ⟨hp.slashes, fun part hpart => hp.parts part (List.dropLast_subset _ hpart)⟩

theorem mem_render_of_mem {part : String} {d : Char} (hpart : part ∈ p.parts)
    (hd : d ∈ part.toList) : d ∈ p.render.toList := by
  have hmem {x : List Char} {xs : List (List Char)} (hx : x ∈ xs) : x ∈ xs.intersperse ['/'] := by
    induction xs with
    | nil => cases hx
    | cons y ys ih =>
      cases ys with
      | nil => exact hx
      | cons z zs =>
        rw [List.intersperse_cons_cons]
        rcases List.mem_cons.1 hx with rfl | hx
        · exact List.mem_cons_self ..
        · exact List.mem_cons_of_mem _ (List.mem_cons_of_mem _ (ih hx))
  have hne : ¬ (p.slashes = 0 ∧ p.parts = []) := fun h => List.ne_nil_of_mem hpart h.2
  rw [render, if_neg hne, String.toList_append, String.toList_intercalate]
  refine List.mem_append_right _ (List.mem_flatten.2 ⟨part.toList, hmem ?_, hd⟩)
  exact List.mem_map_of_mem hpart

-- Steps

theorem slashes_step (p : Path) (part : String) : (p.step part).slashes = p.slashes := by
  unfold step
  split
  · split
    · split
      · next h => exact h.symm
      · rfl
    · rfl
    · rfl
  · rfl

theorem slashes_foldl (parts : List String) (p : Path) :
    (parts.foldl step p).slashes = p.slashes := by
  induction parts generalizing p with
  | nil => rfl
  | cons part parts ih => rw [List.foldl_cons, ih, slashes_step]

theorem step_of_ne {part : String} (h : part ≠ "..") :
    p.step part = ⟨p.slashes, p.parts ++ [part]⟩ := if_neg h

/-- Double dots come first. -/
def Straight (p : Path) : Prop :=
  ∃ n names, p.parts = List.replicate n ".." ++ names ∧ ".." ∉ names

theorem Straight.step (h : p.Straight) (part : String) : (p.step part).Straight := by
  obtain ⟨n, names, hparts, hnames⟩ := h
  by_cases hpart : part = ".."
  · unfold Path.step
    rw [if_pos hpart]
    split
    · split
      · exact ⟨1, [], rfl, List.not_mem_nil⟩
      · exact ⟨n, names, hparts, hnames⟩
    · next hlast =>
      rcases List.eq_nil_or_concat names with rfl | ⟨names, name, rfl⟩
      · refine ⟨n + 1, [], ?_, List.not_mem_nil⟩
        rw [List.append_nil] at hparts ⊢
        rw [hparts, List.replicate_succ']
      · rw [hparts, List.concat_eq_append, ← List.append_assoc, List.getLast?_concat] at hlast
        rw [List.concat_eq_append] at hnames
        exact absurd (by simp [Option.some.inj hlast]) hnames
    · next last hne hlast =>
      rcases List.eq_nil_or_concat names with rfl | ⟨names, name, rfl⟩
      · rw [List.append_nil] at hparts
        have hmem := List.mem_of_getLast? hlast
        rw [hparts] at hmem
        exact absurd (List.eq_of_mem_replicate hmem) hne
      · refine ⟨n, names, ?_, fun h => hnames (by simp [h])⟩
        rw [parent, hparts, List.concat_eq_append, ← List.append_assoc, List.dropLast_concat]
  · rw [step_of_ne hpart]
    refine ⟨n, names ++ [part], ?_, ?_⟩
    · rw [hparts, List.append_assoc]
    · simpa using ⟨hnames, Ne.symm hpart⟩

theorem straight_foldl (parts : List String) (h : p.Straight) :
    (parts.foldl Path.step p).Straight := by
  induction parts generalizing p with
  | nil => exact h
  | cons part parts ih => exact ih (h.step part)

theorem straight_root (n : Nat) : Straight ⟨n, []⟩ := ⟨0, [], rfl, List.not_mem_nil⟩

/-- If the last part is double dots, so are all. -/
theorem Straight.all_of_getLast? (h : p.Straight) (hlast : p.parts.getLast? = some "..") :
    p.parts.all (· == "..") = true := by
  obtain ⟨n, names, hparts, hnames⟩ := h
  rcases List.eq_nil_or_concat names with rfl | ⟨names, name, rfl⟩
  · rw [hparts, List.append_nil, List.all_replicate]
    simp
  · rw [hparts, List.concat_eq_append, ← List.append_assoc, List.getLast?_concat] at hlast
    rw [List.concat_eq_append] at hnames
    exact absurd (by simp [Option.some.inj hlast]) hnames

end Path

namespace Files

variable {fs : Files} {p q : Path}

/-- All directories above a place are there. -/
def Grounded (fs : Files) (p : Path) : Prop :=
  ∀ pre post, p.parts = pre ++ post → post ≠ [] → fs.node? ⟨p.slashes, pre⟩ = some .dir

theorem Grounded.step (h : fs.Grounded p) (hdir : fs.node? p = some .dir) (part : String) :
    fs.Grounded (p.step part) := by
  have hpush (last : String) : fs.Grounded ⟨p.slashes, p.parts ++ [last]⟩ := by
    intro pre post hsplit hpost
    rcases List.eq_nil_or_concat post with rfl | ⟨post, x, rfl⟩
    · exact absurd rfl hpost
    · rw [List.concat_eq_append, ← List.append_assoc] at hsplit
      obtain ⟨hparts, -⟩ := List.append_inj' hsplit rfl
      by_cases hnil : post = []
      · subst hnil
        rw [List.append_nil] at hparts
        rw [← hparts]
        exact hdir
      · exact h pre post hparts hnil
  unfold Path.step
  split
  · split
    · split
      · intro pre post hsplit hpost
        have hpre : pre = [] := by
          cases pre with
          | nil => rfl
          | cons a pre =>
            obtain ⟨-, htail⟩ := List.cons.inj hsplit
            exact absurd (List.append_eq_nil_iff.1 htail.symm).2 hpost
        subst hpre
        rfl
      · exact h
    · exact hpush ".."
    · intro pre post hsplit hpost
      have hparts : p.parts = pre ++ (post ++ p.parts.drop (p.parts.length - 1)) := by
        have hsplit' : p.parts.dropLast = pre ++ post := hsplit
        rw [← List.append_assoc, ← hsplit', List.dropLast_eq_take]
        exact (List.take_append_drop _ _).symm
      exact h pre _ hparts (by simp [hpost])
  · exact hpush part

/-- A walk that arrives has passed directories only. -/
theorem walk_append {parts rest : List String} {n : FileNode} (hp : fs.Grounded p)
    (hrest : rest ≠ []) (h : fs.walk p (parts ++ rest) = .ok n) :
    fs.Grounded (parts.foldl Path.step p) ∧ fs.node? (parts.foldl Path.step p) = some .dir ∧
      ∀ other, fs.walk p (parts ++ other) = fs.walk (parts.foldl Path.step p) other := by
  induction parts generalizing p with
  | nil =>
    obtain ⟨part, rest, rfl⟩ := List.exists_cons_of_ne_nil hrest
    refine ⟨hp, ?_, fun _ => rfl⟩
    rw [List.nil_append, walk] at h
    split at h
    · next hdir => exact hdir
    · cases h
    · cases h
  | cons part parts ih =>
    rw [List.cons_append, walk] at h
    split at h
    · next hdir =>
      split at h
      · cases h
      next hsize =>
      obtain ⟨hgrounded, hnode, hother⟩ := ih (hp.step hdir part) h
      refine ⟨hgrounded, hnode, fun other => ?_⟩
      rw [List.cons_append, walk, hdir]
      dsimp only
      rw [if_neg hsize]
      exact hother other
    · cases h
    · cases h

theorem find_eq_walk {n : FileNode} (h : fs.find p = .ok n) :
    '\x00' ∉ p.render.toList ∧ fs.walk ⟨p.slashes, []⟩ p.parts = .ok n := by
  unfold find at h
  dsimp only at h
  split at h
  · cases h
  next hzero =>
  split at h
  · cases h
  · exact ⟨by simpa using hzero, h⟩

theorem node?_of_walk {parts : List String} {n : FileNode} (h : fs.walk p parts = .ok n) :
    fs.node? (parts.foldl Path.step p) = some n := by
  induction parts generalizing p with
  | nil =>
    unfold walk at h
    split at h
    · next m hm =>
      cases h
      exact hm
    · cases h
  | cons part parts ih =>
    rw [walk] at h
    split at h
    · split at h
      · cases h
      · exact ih h
    · cases h
    · cases h

theorem grounded_root (n : Nat) : fs.Grounded ⟨n, []⟩ := by
  intro pre post hsplit hpost
  exact absurd (List.append_eq_nil_iff.1 hsplit.symm).2 hpost

/-- Where a file stands: in a directory, under a name of its own. -/
theorem exists_place {content : List UInt8} (h : fs.find p = .ok (.file content)) :
    ∃ pre part, p.parts = pre ++ [part] ∧ part ≠ ".." ∧
      ∀ other, fs.walk ⟨p.slashes, []⟩ (pre ++ other) =
        fs.walk (pre.foldl Path.step ⟨p.slashes, []⟩) other := by
  obtain ⟨-, hwalk⟩ := find_eq_walk h
  rcases List.eq_nil_or_concat p.parts with hnil | ⟨pre, part, hparts⟩
  · rw [hnil] at hwalk
    cases hwalk
  rw [List.concat_eq_append] at hparts
  rw [hparts] at hwalk
  obtain ⟨hgrounded, hdir, hother⟩ :=
    walk_append (grounded_root _) (List.cons_ne_nil part []) hwalk
  refine ⟨pre, part, hparts, ?_, hother⟩
  rintro rfl
  -- Double dots lead to a directory.
  have hnode := node?_of_walk hwalk
  rw [List.foldl_append, List.foldl_cons, List.foldl_nil] at hnode
  have hstraight := Path.straight_foldl pre (Path.straight_root p.slashes)
  generalize pre.foldl Path.step ⟨p.slashes, []⟩ = d at hgrounded hdir hnode hstraight
  have hup : fs.node? (d.step "..") = some .dir := by
    unfold Path.step
    rw [if_pos rfl]
    split
    · split
      · rfl
      · exact hdir
    · next hlast =>
      refine if_pos ?_
      rw [List.all_append, hstraight.all_of_getLast? hlast]
      rfl
    · next last _ hlast =>
      obtain ⟨parts, hparts⟩ := List.getLast?_eq_some_iff.1 hlast
      rw [Path.parent, hparts, List.dropLast_concat]
      exact hgrounded _ _ hparts (List.cons_ne_nil _ _)
  rw [hup] at hnode
  cases hnode

/-- Paths of files that lead to the same place. -/
structure Alike (fs : Files) (p q : Path) : Prop where
  left : fs.isFile p = .ok true
  right : fs.isFile q = .ok true
  same : p.resolve = q.resolve

namespace Alike

theorem symm (h : fs.Alike p q) : fs.Alike q p := ⟨h.right, h.left, h.same.symm⟩

theorem find_eq (h : fs.Alike p q) : fs.find p = fs.find q := by
  obtain ⟨bytes, hp⟩ := find_of_isFile h.left
  obtain ⟨bytes', hq⟩ := find_of_isFile h.right
  have hnode := node?_of_walk (find_eq_walk hp).2
  have hnode' := node?_of_walk (find_eq_walk hq).2
  have hsame : p.parts.foldl Path.step ⟨p.slashes, []⟩ = q.parts.foldl Path.step ⟨q.slashes, []⟩ :=
    h.same
  rw [hsame, hnode'] at hnode
  rw [hp, hq, Option.some.inj hnode]

/-- The directories of the two files are one. -/
theorem parent (h : fs.Alike p q) : p.slashes = q.slashes ∧
    p.parent.parts.foldl Path.step ⟨p.slashes, []⟩ =
      q.parent.parts.foldl Path.step ⟨q.slashes, []⟩ ∧
    ∀ other, fs.walk ⟨p.slashes, []⟩ (p.parent.parts ++ other) =
      fs.walk ⟨q.slashes, []⟩ (q.parent.parts ++ other) := by
  obtain ⟨bytes, hp⟩ := find_of_isFile h.left
  obtain ⟨bytes', hq⟩ := find_of_isFile h.right
  obtain ⟨pre, part, hparts, hpart, hwalk⟩ := exists_place hp
  obtain ⟨pre', part', hparts', hpart', hwalk'⟩ := exists_place hq
  have hpre : p.parent.parts = pre := by rw [Path.parent, hparts, List.dropLast_concat]
  have hpre' : q.parent.parts = pre' := by rw [Path.parent, hparts', List.dropLast_concat]
  have hresolve (d : Path) (parts : List String) (last : String) (hlast : last ≠ "..") :
      (parts ++ [last]).foldl Path.step d =
        ⟨(parts.foldl Path.step d).slashes, (parts.foldl Path.step d).parts ++ [last]⟩ := by
    rw [List.foldl_append, List.foldl_cons, List.foldl_nil, Path.step_of_ne hlast]
  have hsame := h.same
  rw [Path.resolve, Path.resolve, hparts, hparts', hresolve _ _ _ hpart, hresolve _ _ _ hpart'] at hsame
  obtain ⟨hslashes, hall⟩ := Path.mk.inj hsame
  obtain ⟨hdirs, -⟩ := List.append_inj' hall rfl
  have hdir : pre.foldl Path.step ⟨p.slashes, []⟩ = pre'.foldl Path.step ⟨q.slashes, []⟩ := by
    generalize pre.foldl Path.step ⟨p.slashes, []⟩ = d at hslashes hdirs
    generalize pre'.foldl Path.step ⟨q.slashes, []⟩ = d' at hslashes hdirs
    cases d
    cases d'
    exact Path.mk.injEq .. ▸ ⟨hslashes, hdirs⟩
  rw [Path.slashes_foldl, Path.slashes_foldl] at hslashes
  refine ⟨hslashes, ?_, fun other => ?_⟩
  · rw [hpre, hpre']
    exact hdir
  · rw [hpre, hpre', hwalk, hwalk', hdir]

/-- A file is found next to both or next to none. -/
theorem near (h : fs.Alike p q) {file : Path} {b b' : Bool}
    (hb : fs.isFile (p.parent.join file) = .ok b) (hb' : fs.isFile (q.parent.join file) = .ok b') :
    b = b' ∧ (p.parent.join file).resolve = (q.parent.join file).resolve := by
  have hfound {p q : Path} (h : fs.Alike p q) {b : Bool}
      (hp : fs.isFile (p.parent.join file) = .ok true)
      (hq : fs.isFile (q.parent.join file) = .ok b) : b = true := by
    by_cases hrelative : file.slashes = 0
    · obtain ⟨bytes, hfind⟩ := find_of_isFile hp
      obtain ⟨hzero, hwalk⟩ := find_eq_walk hfind
      have hjoin (d : Path) : d.join file = ⟨d.slashes, d.parts ++ file.parts⟩ := if_pos hrelative
      rw [hjoin] at hzero hwalk hq
      have hwalk : fs.walk ⟨q.slashes, []⟩ (q.parent.parts ++ file.parts) = .ok (.file bytes) :=
        (h.parent.2.2 file.parts).symm.trans hwalk
      have hfree : '\x00' ∉ (Path.mk q.parent.slashes (q.parent.parts ++ file.parts)).render.toList := by
        obtain ⟨bytes', hfind'⟩ := find_of_isFile h.right
        intro hmem
        rcases Path.mem_render hmem with hd | hd | ⟨part, hpart, hd⟩
        · exact absurd hd (by decide)
        · exact absurd hd (by decide)
        rcases List.mem_append.1 hpart with hpart | hpart
        · exact (find_eq_walk hfind').1 (Path.mem_render_of_mem (List.dropLast_subset _ hpart) hd)
        · exact hzero (Path.mem_render_of_mem (List.mem_append_right _ hpart) hd)
      have hfind' : fs.find ⟨q.parent.slashes, q.parent.parts ++ file.parts⟩ = .ok (.file bytes) ∨
          fs.find ⟨q.parent.slashes, q.parent.parts ++ file.parts⟩ = .error .nameTooLong := by
        unfold find
        dsimp only
        rw [if_neg (by simpa using hfree)]
        split
        · exact .inr rfl
        · exact .inl hwalk
      rcases hfind' with hfind' | hfind'
      · rw [isFile, hfind'] at hq
        exact (Except.ok.inj hq).symm
      · rw [isFile, hfind'] at hq
        cases hq
    · have hjoin (d : Path) : d.join file = file := if_neg hrelative
      rw [hjoin] at hp hq
      rw [hp] at hq
      exact (Except.ok.inj hq).symm
  refine ⟨?_, ?_⟩
  · cases b with
    | true => exact (hfound h hb hb').symm
    | false =>
      cases b' with
      | true => exact hfound h.symm hb' hb
      | false => rfl
  · obtain ⟨hslashes, hdir, -⟩ := h.parent
    unfold Path.join
    split
    · show (p.parent.parts ++ file.parts).foldl Path.step ⟨p.slashes, []⟩ =
        (q.parent.parts ++ file.parts).foldl Path.step ⟨q.slashes, []⟩
      rw [List.foldl_append, List.foldl_append, hdir]
    · rfl

end Alike

end Files

end TypeLens
