import TypeLens.Proofs.Surface.Literals

/-!
The names of imported modules are words of the source.
-/

namespace TypeLens.Surface

open Concrete

/-- A name that begins with a letter and has neither dots nor slashes. -/
structure IsModuleName (name : String) : Prop where
  nonempty : name ≠ ""
  dot : '.' ∉ name.toList
  slash : '/' ∉ name.toList

theorem isModuleName_of_conid {source : List Char} {t : Token} (h : t ∈ (Lex.lex source).tokens)
    (hk : t.kind = .conid) : IsModuleName t.text := by
  obtain ⟨p, r, hp, hpk, ht⟩ := Lex.exists_isPiece h
  obtain ⟨c, word, htext, hc, hword⟩ := hp.of_conid (hk ▸ hpk)
  have hall : ∀ d ∈ t.text.toList, Lex.isWordChar d = true := by
    rw [ht, String.toList_ofList, htext]
    intro d hd
    rcases List.mem_cons.mp hd with rfl | hd
    · simp [Lex.isWordChar, hc]
    · exact hword d hd
  refine ⟨?_, fun hd => ?_, fun hd => ?_⟩
  · rw [ht, htext]
    simp [← String.toList_inj]
  · exact absurd (hall _ hd) (by decide)
  · exact absurd (hall _ hd) (by decide)

variable {file : Option String}

theorem imports_buildTopDecl {p p' : Progress} {d : TopDecl}
    (h : buildTopDecl file p d = .ok p') :
    ∀ i ∈ p'.imports, i ∈ p.imports ∨ ∃ kw n, d = .importDecl kw n ∧ i.module = n.text := by
  cases d with
  | header kw n =>
    rw [buildTopDecl] at h
    split at h
    · cases h
    · cases h
      exact fun i hi => .inl hi
  | importDecl kw n =>
    rw [buildTopDecl] at h
    split at h
    · cases h
    · cases h
      intro i hi
      rcases List.mem_append.mp hi with hi | hi
      · exact .inl hi
      · obtain rfl := List.mem_singleton.mp hi
        exact .inr ⟨kw, n, rfl, rfl⟩
  | decl d =>
    rw [buildTopDecl] at h
    cases hd : buildDecl file d with
    | error f => simp [hd, bind, Except.bind] at h
    | ok d' =>
      simp only [hd, bind, Except.bind, pure, Except.pure] at h
      cases h
      exact fun i hi => .inl hi

theorem imports_foldlM {ds : List TopDecl} {p p' : Progress}
    (h : ds.foldlM (buildTopDecl file) p = .ok p') :
    ∀ i ∈ p'.imports, i ∈ p.imports ∨ ∃ kw n, .importDecl kw n ∈ ds ∧ i.module = n.text := by
  induction ds generalizing p with
  | nil =>
    cases h
    exact fun i hi => .inl hi
  | cons d ds ih =>
    rw [List.foldlM_cons] at h
    cases hd : buildTopDecl file p d with
    | error f => simp [hd, bind, Except.bind] at h
    | ok q =>
      rw [hd] at h
      intro i hi
      rcases ih h i hi with hi | ⟨kw, n, hm, he⟩
      · rcases imports_buildTopDecl hd i hi with hi | ⟨kw, n, rfl, he⟩
        · exact .inl hi
        · exact .inr ⟨kw, n, List.mem_cons_self, he⟩
      · exact .inr ⟨kw, n, List.mem_cons_of_mem d hm, he⟩

theorem mem_yield_of_mem_toList {c : Concrete.Module} {d : TopDecl} {t : Token}
    (hd : d ∈ c.toList) (ht : t ∈ d.yield) : t ∈ c.yield := by
  obtain ⟨decls⟩ := c
  cases decls with
  | none => exact absurd hd List.not_mem_nil
  | some ds =>
    rcases List.mem_cons.mp hd with rfl | hd
    · exact List.mem_append_left _ ht
    · obtain ⟨x, hx, rfl⟩ := List.mem_map.mp hd
      exact List.mem_append_right _
        (List.mem_flatMap.mpr ⟨x, hx, List.mem_cons_of_mem _ ht⟩)

/-- Only layout adds tokens. -/
theorem mem_lex_of_mem_process {w : Int} {source : List Char} {t : Token}
    (h : t ∈ Layout.process w (Lex.lex source).tokens) (ht : Layout.isSynthetic t.kind = false) :
    t ∈ (Lex.lex source).tokens := by
  have hreal : ∀ t ∈ (Lex.lex source).tokens, _ := isSynthetic_of_mem_lex
  have hrun := Layout.Emitted.empty.run w hreal
  obtain ⟨s, -, whole⟩ := hrun.finish
  have hreal := whole.real
  rw [List.nil_append, List.nil_append, ← Layout.process] at hreal
  have hmem : t ∈ (Layout.process w (Lex.lex source).tokens).filter
      fun t => !Layout.isSynthetic t.kind := List.mem_filter.mpr ⟨h, by rw [ht]; rfl⟩
  rw [hreal] at hmem
  exact (List.mem_filter.mp hmem).1

theorem isModuleName_of_mem_imports {w : Int} {source : String} {m : Module}
    (h : parseModule w file source = .ok m) : ∀ i ∈ m.imports, IsModuleName i.module := by
  unfold parseModule at h
  split at h
  · cases h
  cases hc : readModule w source with
  | error e => simp [hc] at h
  | ok c =>
    simp only [hc] at h
    rw [buildModule] at h
    cases hp : c.toList.foldlM (buildTopDecl file) {} with
    | error f => simp [hp, bind, Except.bind, Except.mapError] at h
    | ok p =>
      simp only [hp, bind, Except.bind, pure, Except.pure, Except.mapError] at h
      cases h
      intro i hi
      rcases imports_foldlM hp i hi with hi | ⟨kw, n, hd, he⟩
      · exact absurd hi List.not_mem_nil
      · have hyield : n.token ∈ c.yield := mem_yield_of_mem_toList hd (by simp [TopDecl.yield])
        rw [(readModule_eq_ok_iff.mp hc).2] at hyield
        have := isModuleName_of_conid (mem_lex_of_mem_process hyield rfl) rfl
        rwa [he]

end TypeLens.Surface
