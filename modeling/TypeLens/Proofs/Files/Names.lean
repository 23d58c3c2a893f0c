import TypeLens.Files.Source
import TypeLens.Session.ModuleGraph

/-!
Names of files. A path that is rendered and read again has no new characters, and words have module
files; a module that is read from a file is read from a text.
-/

namespace TypeLens

namespace Text

variable {c d : Char} {cs w : List Char}

theorem mem_of_mem_splitOn (hw : w ∈ splitOn c cs) (hd : d ∈ w) : d ∈ cs := by
  induction cs generalizing w with
  | nil =>
    rw [splitOn, List.mem_singleton] at hw
    exact absurd (hw ▸ hd) List.not_mem_nil
  | cons e cs ih =>
    rw [splitOn] at hw
    split at hw
    · rcases List.mem_cons.mp hw with rfl | hw
      · exact absurd hd List.not_mem_nil
      · exact List.mem_cons_of_mem e (ih hw hd)
    · split at hw
      · obtain rfl := List.mem_singleton.mp hw
        obtain rfl := List.mem_singleton.mp hd
        exact List.mem_cons_self
      · rename_i p ps hsplit
        rcases List.mem_cons.mp hw with rfl | hw
        · rcases List.mem_cons.mp hd with rfl | hd
          · exact List.mem_cons_self
          · exact List.mem_cons_of_mem e (ih (by simp [hsplit]) hd)
        · exact List.mem_cons_of_mem e (ih (by simp [hsplit, hw]) hd)

theorem splitOn_of_not_mem (h : c ∉ cs) : splitOn c cs = [cs] := by
  induction cs with
  | nil => rfl
  | cons d cs ih =>
    rw [List.mem_cons, not_or] at h
    rw [splitOn, if_neg (Ne.symm h.1), ih h.2]

theorem splitString_of_not_mem {s : String} (h : c ∉ s.toList) : splitString c s = [s] := by
  rw [splitString, splitOn_of_not_mem h, List.map_singleton, String.ofList_toList]

end Text

namespace Path

theorem mem_intercalate {α : Type} {d : α} {sep : List α} {xs : List (List α)}
    (h : d ∈ sep.intercalate xs) : d ∈ sep ∨ ∃ x ∈ xs, d ∈ x := by
  obtain ⟨y, hy, hd⟩ := List.mem_flatten.mp h
  have : ∀ xs : List (List α), y ∈ xs.intersperse sep → y = sep ∨ y ∈ xs := by
    intro xs
    induction xs with
    | nil => simp
    | cons a xs ih =>
      cases xs with
      | nil => exact fun h => .inr (by simpa using h)
      | cons b xs =>
        rw [List.intersperse_cons_cons]
        grind
  rcases this xs hy with rfl | hx
  · exact .inl hd
  · exact .inr ⟨y, hx, hd⟩

/-- The characters of a name are those of its components, slashes and dots. -/
theorem mem_render {p : Path} {d : Char} (h : d ∈ p.render.toList) :
    d = '/' ∨ d = '.' ∨ ∃ part ∈ p.parts, d ∈ part.toList := by
  unfold render at h
  split at h
  · exact .inr (.inl (by simpa using h))
  · rw [String.toList_append, List.mem_append, String.toList_ofList, String.toList_intercalate] at h
    rcases h with h | h
    · exact .inl (List.eq_of_mem_replicate h)
    · rcases mem_intercalate h with h | ⟨x, hx, hd⟩
      · exact .inl (by simpa using h)
      · obtain ⟨part, hp, rfl⟩ := List.mem_map.mp hx
        exact .inr (.inr ⟨part, hp, hd⟩)

theorem mem_of_mem_ofString {s part : String} {d : Char} (hp : part ∈ (ofString s).parts)
    (hd : d ∈ part.toList) : d ∈ s.toList := by
  obtain ⟨w, hw, rfl⟩ := List.mem_map.mp (List.mem_filter.mp hp).1
  exact Text.mem_of_mem_splitOn hw (by simpa using hd)

/-- Reading a name as a path adds slashes and dots only. -/
theorem mem_render_ofString {s : String} {d : Char} (h : d ∈ (ofString s).render.toList) :
    d = '/' ∨ d = '.' ∨ d ∈ s.toList := by
  rcases mem_render h with h | h | ⟨part, hp, hd⟩
  · exact .inl h
  · exact .inr (.inl h)
  · exact .inr (.inr (mem_of_mem_ofString hp hd))

end Path

namespace Files

theorem find_of_isFile {fs : Files} {p : Path} (h : fs.isFile p = .ok true) :
    ∃ content, fs.find p = .ok (.file content) := by
  unfold isFile at h
  split at h <;> simp_all

theorem find_ne_zeroInName {fs : Files} {p : Path} (h : '\x00' ∉ p.render.toList) :
    fs.find p ≠ .error .zeroInName := by
  have walk : ∀ parts q, fs.walk q parts ≠ .error .zeroInName := by
    intro parts
    induction parts with
    | nil => intro q; rw [Files.walk]; split <;> simp
    | cons part parts ih =>
      intro q
      rw [Files.walk]
      split
      · split
        · simp
        · exact ih _
      · simp
      · simp
  unfold find
  simp only [List.contains_eq_mem, h, decide_false, Bool.false_eq_true, if_false]
  split
  · simp
  · exact walk _ _

/-- The name of a file that was found can be read again. -/
theorem read_ne_zeroInName {fs : Files} {p : Path} (h : fs.isFile p = .ok true) :
    fs.read (.ofString p.render) ≠ .error .zeroInName := by
  have hzero : '\x00' ∉ p.render.toList := by
    obtain ⟨content, hf⟩ := find_of_isFile h
    intro hmem
    unfold find at hf
    simp [hmem] at hf
  have hagain : '\x00' ∉ (Path.ofString p.render).render.toList := by
    intro hmem
    rcases Path.mem_render_ofString hmem with h | h | h
    · exact absurd h (by decide)
    · exact absurd h (by decide)
    · exact hzero h
  have : fs.find _ ≠ _ := find_ne_zeroInName hagain
  unfold read
  split <;> simp_all

end Files

/-- A name without dots and slashes is that of a module in the file next by. -/
theorem moduleFile_of_word {module : String} (hne : module ≠ "") (hdot : '.' ∉ module.toList)
    (hslash : '/' ∉ module.toList) : moduleFile module = .ok ⟨0, [module ++ ".hs"]⟩ := by
  have hcomponent : Path.isComponent module = true := by
    have : module ≠ "." := by rintro rfl; exact hdot (by decide)
    simp [Path.isComponent, hne, this]
  have hhead : module.toList.takeWhile (· == '/') = [] := by
    cases hm : module.toList with
    | nil => rfl
    | cons c cs =>
      rw [hm, List.mem_cons, not_or] at hslash
      exact List.takeWhile_cons_of_neg (by simpa using Ne.symm hslash.1)
  have hpath : Path.ofString module = ⟨0, [module]⟩ := by
    simp [Path.ofString, Path.components, Text.splitString_of_not_mem hslash, hcomponent, hhead]
  rw [moduleFile, Text.splitString_of_not_mem hdot]
  simp [hpath, Path.join, Path.here, Path.addSuffix]

theorem Surface.exists_source_of_parseFile {fs : Files} {w : Option Int} {name : String}
    {m : Surface.Module} (h : Surface.parseFile fs w name = .ok m) :
    ∃ w source, Surface.parseModule w (some name) source = .ok m := by
  unfold Surface.parseFile at h
  cases hs : Surface.readSource fs name with
  | error f => rw [hs] at h; cases h
  | ok source =>
    rw [hs] at h
    cases w with
    | none => cases h
    | some w => exact ⟨w, source, h⟩

end TypeLens
