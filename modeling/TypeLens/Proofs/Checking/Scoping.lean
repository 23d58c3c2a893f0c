import TypeLens.Proofs.Checking.Resolution
import TypeLens.Proofs.Lex.Words
import TypeLens.Render.Type

/-!
What an occurrence means does not depend on the order in which names come into scope: a module's own
name hides all others of its spelling, early or late. So a name without its module stands for one
name only, and no two top-level names are written alike.
-/

namespace TypeLens

open List (eraseDupsBy)

namespace Declared

variable {module : String} {ds es : List Declared} {d : Declared}

/-- The first of the declarations of each name, in order. -/
def firsts (ds : List Declared) : List Declared := ds.eraseDupsBy fun d e => d.name == e.name

/-- The declarations of the names of one spelling. -/
def spelled (space : Namespace) (occ : String) (ds : List Declared) : List Declared :=
  ds.filter fun d => (d.name.space, d.name.occ) = (space, occ)

/-- The declarations of the module's own names. -/
def own (module : String) (ds : List Declared) : List Declared :=
  ds.filter (·.name.module == module)

/-- Those of the names that a module sees: its own ones, if there are any. -/
def visible (module : String) (ds : List Declared) : List Declared :=
  if (own module ds).isEmpty then ds else own module ds

theorem firsts_cons (d : Declared) (ds : List Declared) :
    firsts (d :: ds) = d :: firsts (ds.filter (·.name != d.name)) := by
  rw [firsts, List.eraseDupsBy_cons]
  congr 3
  funext e
  simp [bne, Bool.beq_eq_decide_eq]

/-- Induction over the names in the order in which they come first. -/
theorem firsts_induction {P : List Declared → Prop} (nil : P [])
    (cons : ∀ d ds, P (ds.filter (·.name != d.name)) → P (d :: ds)) (ds : List Declared) :
    P ds := by
  induction h : ds.length using Nat.strong_induction_on generalizing ds with
  | _ n ih =>
    cases ds with
    | nil => exact nil
    | cons d ds =>
      refine cons d ds (ih _ ?_ _ rfl)
      rw [← h, List.length_cons]
      exact Nat.lt_succ_of_le (List.length_filter_le ..)

theorem mem_map_name_firsts {n : Name} :
    n ∈ (firsts ds).map (·.name) ↔ n ∈ ds.map (·.name) := by
  induction ds using firsts_induction with
  | nil => exact .rfl
  | cons d ds ih =>
    rw [firsts_cons, List.map_cons, List.map_cons, List.mem_cons, List.mem_cons, ih]
    by_cases hn : n = d.name
    · simp [hn]
    · simp [hn]
      grind

theorem nodup_map_name_firsts : ((firsts ds).map (·.name)).Nodup := by
  induction ds using firsts_induction with
  | nil => exact .nil
  | cons d ds ih =>
    rw [firsts_cons, List.map_cons, List.nodup_cons]
    refine ⟨fun hmem => ?_, ih⟩
    obtain ⟨e, he, heq⟩ := List.mem_map.1 (mem_map_name_firsts.1 hmem)
    exact absurd heq (by simpa using (List.mem_filter.1 he).2)

theorem any_firsts {n : Name} : (firsts ds).any (·.name == n) = ds.any (·.name == n) := by
  rw [Bool.eq_iff_iff]
  have hmem : n ∈ (firsts ds).map (·.name) ↔ n ∈ ds.map (·.name) := mem_map_name_firsts
  simpa using hmem

theorem firsts_append_singleton :
    firsts (ds ++ [d]) = if ds.any (·.name == d.name) then firsts ds else firsts ds ++ [d] := by
  induction ds using firsts_induction with
  | nil => rfl
  | cons e ds ih =>
    rw [List.cons_append, firsts_cons, firsts_cons, List.filter_append, List.any_cons]
    by_cases hde : e.name = d.name
    · simp [hde]
    · have hany : (ds.filter (·.name != e.name)).any (·.name == d.name) =
          ds.any (·.name == d.name) := by
        rw [List.any_filter]
        congr 1
        funext x
        grind
      have hde' : (e.name == d.name) = false := by simpa using hde
      rw [List.filter_cons_of_pos (by simpa using Ne.symm hde), List.filter_nil, ih, hany, hde',
        Bool.false_or]
      split <;> rfl

theorem firsts_subset (ds : List Declared) : firsts ds ⊆ ds := by
  induction ds using firsts_induction with
  | nil => exact List.Subset.refl _
  | cons d ds ih =>
    rw [firsts_cons]
    exact List.cons_subset_cons d fun e he => (List.mem_filter.1 (ih he)).1

/-- One more declaration of a spelling, next to what is visible. -/
theorem merge_visible :
    Scope.merge module (firsts (visible module ds)) d = firsts (visible module (ds ++ [d])) := by
  have hown : own module (ds ++ [d]) =
      own module ds ++ if d.name.module = module then [d] else [] := by
    rw [own, List.filter_append, own]
    by_cases hd : d.name.module = module <;> simp [hd]
  rw [Scope.merge, any_firsts, visible, visible, hown]
  cases howns : own module ds with
  | nil =>
    have hnone : ∀ e ∈ ds, e.name.module ≠ module := by simpa [own] using howns
    by_cases hd : d.name.module = module
    · have hnew : ds.any (·.name == d.name) = false := by
        simp only [List.any_eq_false, beq_iff_eq]
        exact fun e he heq => hnone e he (heq ▸ hd)
      have hothers : (firsts ds).filter (·.name.module == module) = [] := by
        simpa using fun e he => hnone e (firsts_subset ds he)
      simp [hd, hnew, hothers]
      rfl
    · have hothers : (firsts ds).any (·.name.module == module) = false := by
        simpa using fun e he => hnone e (firsts_subset ds he)
      simp [hd, hothers, firsts_append_singleton]
  | cons e es =>
    have hall : ∀ x ∈ firsts (e :: es), x.name.module = module := fun x hx => by
      have hx := firsts_subset _ hx
      rw [← howns] at hx
      simpa using (List.mem_filter.1 hx).2
    by_cases hd : d.name.module = module
    · have hsame : (firsts (e :: es)).filter (·.name.module == module) = firsts (e :: es) := by
        simpa using hall
      have hfirsts : firsts (e :: es ++ [d]) = if (e :: es).any (·.name == d.name) then
          firsts (e :: es) else firsts (e :: es) ++ [d] := firsts_append_singleton
      rw [List.cons_append] at hfirsts
      simp [hd, hsame, hfirsts]
    · have hsome : (firsts (e :: es)).any (·.name.module == module) = true := by
        have he := hall e (by simp [firsts_cons])
        simp [firsts_cons, he]
      simp [hd, hsome]

theorem mem_map_name_visible_perm (h : ds.Perm es) {n : Name} :
    n ∈ (visible module ds).map (·.name) ↔ n ∈ (visible module es).map (·.name) := by
  have hown : (own module ds).Perm (own module es) := h.filter _
  have hempty : (own module ds).isEmpty = (own module es).isEmpty := by
    rw [Bool.eq_iff_iff, List.isEmpty_iff, List.isEmpty_iff, ← List.length_eq_zero_iff,
      ← List.length_eq_zero_iff, hown.length_eq]
  rw [visible, visible, hempty]
  split
  · exact (h.map _).mem_iff
  · exact (hown.map _).mem_iff

end Declared

/-- How top-level names of a namespace are spelled. The list type and its empty value have a name of
their own, and dictionaries one that is made of those of the class and the type. -/
inductive Spelling : Namespace → String → Prop
  | conid (space : Namespace) {s : String} (h : Lex.isConid s = true) : Spelling space s
  | word {s : String} (h : Lex.isWord s = true) : Spelling .value s
  | operator {s : String} (h : ∀ c ∈ s.toList, Lex.isOperatorChar c = true) : Spelling .value s
  | list (space : Namespace) : Spelling space "[]"
  | dictionary {cls head : String} (hcls : Lex.isConid cls = true)
      (hhead : Lex.isConid head = true) : Spelling .value ("$f" ++ cls ++ head)

/-- The names of what modules declare, and of what is built in. -/
structure Name.TopLevel (n : Name) : Prop where
  unique : n.unique = 0
  module : Lex.isConid n.module = true
  spelling : n = Builtin.funTyCon ∨ Spelling n.space n.occ

namespace Lex

variable {s : String} {c : Char}

theorem not_mem_of_isConid (hs : isConid s = true) (hc : isWordChar c = false) : c ∉ s.toList := by
  intro hmem
  rw [isWordChar_of_isConid hs hmem] at hc
  cases hc

end Lex

theorem Spelling.isOperatorChar_of_dot {space : Namespace} {occ : String} (h : Spelling space occ)
    (hdot : '.' ∈ occ.toList) : ∀ c ∈ occ.toList, Lex.isOperatorChar c = true := by
  cases h with
  | conid _ h => exact absurd hdot (Lex.not_mem_of_isConid h (by decide))
  | word h => exact absurd (Lex.isWordChar_of_isWord h hdot) (by decide)
  | operator h => exact h
  | list => exact absurd hdot (by decide)
  | dictionary hcls hhead =>
    have hcls := Lex.not_mem_of_isConid hcls (c := '.') (by decide)
    have hhead := Lex.not_mem_of_isConid hhead (c := '.') (by decide)
    simp [hcls, hhead] at hdot

theorem Spelling.ne_arrow {occ : String} (h : Spelling .type occ) : occ ≠ "->" := by
  generalize hspace : Namespace.type = space at h
  rintro rfl
  generalize hocc : "->" = occ at h
  cases h with
  | conid _ h => exact absurd (hocc ▸ h) (by decide)
  | list => exact absurd hocc (by decide)
  | word | operator | dictionary => cases hspace

namespace Name.TopLevel

variable {n n' : Name}

theorem toList_qualified (n : Name) :
    n.qualified.toList = n.module.toList ++ '.' :: n.occ.toList := by
  simp [qualified]

/-- No name begins like a qualified one and goes on with a dot. -/
theorem qualified_ne_occ (h : n.TopLevel) (h' : n'.TopLevel) : n.qualified ≠ n'.occ := by
  intro heq
  have htext := toList_qualified n
  rw [heq] at htext
  have hdot : '.' ∈ n'.occ.toList := htext ▸ by simp
  rcases h'.spelling with rfl | hspelling
  · exact absurd hdot (by decide)
  obtain ⟨c, word, hcons, hupper, -⟩ := Lex.exists_cons_of_isConid h.module
  have hop := hspelling.isOperatorChar_of_dot hdot c (by simp [htext, hcons])
  rw [Lex.isUpper_of_isOperatorChar hop] at hupper
  cases hupper

/-- A qualified name can be read back. -/
theorem eq_of_qualified (h : n.TopLevel) (h' : n'.TopLevel) (hspace : n.space = n'.space)
    (heq : n.qualified = n'.qualified) : n = n' := by
  have hread {m : Name} (hm : m.TopLevel) :
      m.qualified.toList.takeWhile (· ≠ '.') = m.module.toList := by
    have hno := Lex.not_mem_of_isConid hm.module (c := '.') (by decide)
    rw [toList_qualified, List.takeWhile_append_of_pos, List.takeWhile_cons_of_neg (by simp),
      List.append_nil]
    intro c hc
    simpa using fun hdot : c = '.' => hno (hdot ▸ hc)
  have hmodule : n.module.toList = n'.module.toList := by rw [← hread h, ← hread h', heq]
  have htext := toList_qualified n
  rw [heq, toList_qualified, hmodule, List.append_cancel_left_eq, List.cons.injEq] at htext
  cases n
  cases n'
  rw [Name.mk.injEq]
  exact ⟨String.toList_injective htext.2.symm, String.toList_injective hmodule, hspace,
    h.unique.trans h'.unique.symm⟩

theorem eq_funTyCon (h : n.TopLevel) (hspace : n.space = .type) (hocc : n.occ = "->") :
    n = Builtin.funTyCon := by
  rcases h.spelling with h | h
  · exact h
  · rw [hspace] at h
    exact absurd hocc h.ne_arrow

end Name.TopLevel

namespace Scope

open Declared

variable {s : Scope} {n n' : Name}

/-- A name that is written without its module is the one that the spelling means. -/
theorem unqualified_of_policy (h : n.TopLevel) (hp : s.policy n = false) :
    n = Builtin.funTyCon ∨ s.unqualified n = true := by
  simp only [policy, h.unique, bne_self_eq_false, Bool.or_false, Bool.and_eq_false_iff,
    Bool.not_eq_false', beq_iff_eq] at hp
  exact hp

/-- Of one namespace no two names are written alike. -/
theorem eq_of_render (h : n.TopLevel) (h' : n'.TopLevel) (hspace : n.space = n'.space)
    (heq : n.render s.policy = n'.render s.policy) : n = n' := by
  rw [Name.render, Name.render] at heq
  split at heq <;> split at heq
  · exact h.eq_of_qualified h' hspace heq
  · exact absurd heq (h.qualified_ne_occ h')
  · exact absurd heq.symm (h'.qualified_ne_occ h)
  next hp hp' =>
  have hp := unqualified_of_policy h (by simpa using hp)
  have hp' := unqualified_of_policy h' (by simpa using hp')
  rcases hp with rfl | hp
  · exact (h'.eq_funTyCon hspace.symm heq.symm).symm
  rcases hp' with rfl | hp'
  · exact h.eq_funTyCon hspace heq
  · exact eq_of_unqualified hp hp' hspace heq

/-- The scope of a module after some names have been added. -/
def of (module : String) (ds : List Declared) : Scope := ds.foldl add ⟨module, []⟩

theorem of_append_singleton (module : String) (ds : List Declared) (d : Declared) :
    of module (ds ++ [d]) = (of module ds).add d := by
  rw [of, List.foldl_append]
  rfl

theorem module_of (module : String) (ds : List Declared) : (of module ds).module = module := by
  induction ds using List.reverseRecOn with
  | nil => rfl
  | append_singleton ds d ih => rwa [of_append_singleton]

theorem lookup_of (module : String) (ds : List Declared) (space : Namespace) (occ : String) :
    (of module ds).lookup space occ = firsts (visible module (spelled space occ ds)) := by
  induction ds using List.reverseRecOn with
  | nil => rfl
  | append_singleton ds d ih =>
    rw [of_append_singleton, lookup, add, Table.get?_put, module_of]
    by_cases hkey : (d.name.space, d.name.occ) = (space, occ)
    · obtain ⟨rfl, rfl⟩ := Prod.mk.inj hkey
      rw [if_pos hkey, Option.getD_some, ih, merge_visible, spelled, spelled, List.filter_append]
      simp
    · rw [if_neg hkey, ← lookup, ih, spelled, spelled, List.filter_append,
        List.filter_cons_of_neg (by simpa using hkey), List.filter_nil, List.append_nil]

/-- What a module's own name is spelled like means that name alone. -/
theorem lookup_of_own {module : String} {ds : List Declared} {d : Declared} (hd : d ∈ ds)
    (hmodule : d.name.module = module) (hunique : ∀ e ∈ ds, e.name.unique = 0) :
    ((of module ds).lookup d.name.space d.name.occ).map (·.name) = [d.name] := by
  have hown : ∀ e ∈ own module (spelled d.name.space d.name.occ ds), e.name = d.name := by
    intro e he
    obtain ⟨he, hm⟩ := List.mem_filter.1 he
    obtain ⟨he, hkey⟩ := List.mem_filter.1 he
    obtain ⟨hspace, hocc⟩ := Prod.mk.inj (of_decide_eq_true hkey)
    have hunique := (hunique e he).trans (hunique d hd).symm
    have hm := (beq_iff_eq.1 hm).trans hmodule.symm
    cases he' : e.name
    cases hd' : d.name
    simp_all
  have hmem : d ∈ own module (spelled d.name.space d.name.occ ds) := by
    simp [own, spelled, hd, hmodule]
  rw [lookup_of, visible]
  cases howns : own module (spelled d.name.space d.name.occ ds) with
  | nil => simp [howns] at hmem
  | cons e es =>
    rw [howns] at hown
    obtain ⟨he, hes⟩ := List.forall_mem_cons.1 hown
    have hrest : es.filter (·.name != e.name) = [] := by
      simpa [he] using hes
    rw [List.isEmpty_cons, if_neg Bool.false_ne_true, firsts_cons, hrest, List.map_cons, he]
    rfl

/-- An occurrence means what has been declared of its spelling: the module's own name, or if there
is none, all the others, each once and in the order in which they first came. The order in which all
names came is of no account beyond that, and no two top-level names are written alike. -/
theorem lookup_order_free (module : String) (ds : List Declared) :
    (∀ space occ,
        (of module ds).lookup space occ = firsts (visible module (spelled space occ ds)) ∧
          (((of module ds).lookup space occ).map (·.name)).Nodup) ∧
      (∀ d ∈ ds, d.name.module = module → (∀ e ∈ ds, e.name.unique = 0) →
        ((of module ds).lookup d.name.space d.name.occ).map (·.name) = [d.name]) ∧
      (∀ es, ds.Perm es → ∀ space occ,
        (((of module ds).lookup space occ).map (·.name)).Perm
          (((of module es).lookup space occ).map (·.name))) ∧
      ∀ n n' : Name, n.TopLevel → n'.TopLevel → n.space = n'.space →
        n.render (of module ds).policy = n'.render (of module ds).policy → n = n' := by
  have hnodup (ds : List Declared) (space : Namespace) (occ : String) :
      (((of module ds).lookup space occ).map (·.name)).Nodup := by
    rw [lookup_of]
    exact nodup_map_name_firsts
  refine ⟨fun space occ => ⟨lookup_of module ds space occ, hnodup ds space occ⟩,
    fun d hd hmodule hunique => lookup_of_own hd hmodule hunique, fun es h space occ => ?_,
    fun n n' h h' hspace heq => eq_of_render h h' hspace heq⟩
  refine (List.perm_ext_iff_of_nodup (hnodup ds space occ) (hnodup es space occ)).2 fun n => ?_
  rw [lookup_of, lookup_of, mem_map_name_firsts, mem_map_name_firsts]
  exact mem_map_name_visible_perm (h.filter _)

/-- `M` declares `f`, and so does the bundled module; `g` comes from two modules. -/
def clashing : List Declared :=
  [⟨⟨"f", "Prelude", .value, 0⟩, .unknown⟩, ⟨⟨"g", "A", .value, 0⟩, .unknown⟩,
    ⟨⟨"f", "M", .value, 0⟩, .unknown⟩, ⟨⟨"g", "B", .value, 0⟩, .unknown⟩,
    ⟨⟨"g", "A", .value, 0⟩, .unknown⟩]

theorem topLevel_g {module : String} (h : Lex.isConid module = true) :
    (⟨"g", module, .value, 0⟩ : Name).TopLevel :=
  ⟨rfl, h, .inr (.word (show Lex.isWord "g" = true by decide))⟩

theorem lookup_order_free_clashing :
    ((of "M" clashing).lookup .value "f").map (·.name) = [⟨"f", "M", .value, 0⟩] ∧
      (((of "M" clashing).lookup .value "g").map (·.name)).Perm
        (((of "M" clashing.reverse).lookup .value "g").map (·.name)) ∧
      (⟨"g", "A", .value, 0⟩ : Name).render (of "M" clashing).policy ≠
        (⟨"g", "B", .value, 0⟩ : Name).render (of "M" clashing).policy := by
  obtain ⟨-, hown, hperm, hprint⟩ := lookup_order_free "M" clashing
  refine ⟨hown ⟨⟨"f", "M", .value, 0⟩, .unknown⟩ (by decide) rfl (by decide), ?_, fun heq => ?_⟩
  · exact hperm _ (List.reverse_perm _).symm .value "g"
  · have hA := @topLevel_g "A" (by decide)
    have hB := @topLevel_g "B" (by decide)
    exact absurd (hprint _ _ hA hB rfl heq) (by decide)

end Scope

end TypeLens
