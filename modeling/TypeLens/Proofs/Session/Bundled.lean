import TypeLens.Prelude
import TypeLens.Proofs.Checking.Visibility
import TypeLens.Proofs.Files.Names
import TypeLens.Proofs.Session.Worklist
import TypeLens.Proofs.Surface.Literals
import TypeLens.Proofs.Surface.Spellings

/-!
What is known of the bundled module before it is read. A text that begins with a header is a module
of that name, and so the bundled module, be it accepted or not, is called what others import it as.
It knows no names with characters that its text does not have.
-/

namespace TypeLens

open Concrete

namespace Lex

variable {name r : List Char}

theorem tokens_of_header (h : IsPiece ⟨.token .conid, name⟩ r) :
    ∃ t t' ts, (lex ("module ".toList ++ (name ++ r))).tokens = t :: t' :: ts ∧
      t.kind = .kwModule ∧ t'.kind = .conid ∧ t'.text = String.ofList name := by
  obtain ⟨c, word, hname, hupper, -⟩ := h.of_conid rfl
  obtain rfl : name = c :: word := hname
  have hblank : IsPiece ⟨.blank, [' ']⟩ (c :: word ++ r) :=
    isPiece_blank (isSpace_of_isUpper hupper)
  have hpieces : (pieces ("module ".toList ++ (c :: word ++ r))).1 =
      ⟨.token .kwModule, "module".toList⟩ :: (pieces ([' '] ++ (c :: word ++ r))).1 :=
    congrArg Prod.fst (pieces_append isPiece_module)
  rw [pieces_append hblank, pieces_append h] at hpieces
  rw [lex, hpieces]
  exact ⟨_, _, _, rfl, rfl, rfl, rfl⟩

end Lex

/-- Layout adds nothing before the first two tokens if they stand on one line. -/
theorem Layout.process_header {w : Int} {t t' : Token} (ht : t.kind = .kwModule)
    (ht' : t'.kind = .conid) (ts : List Token) :
    ∃ out, process w (t :: t' :: ts) = t :: t' :: out := by
  refine ⟨(run w (step w (step w {} t).2 t').2 ts).1 ++
    finish (run w (step w (step w {} t).2 t').2 ts).2, ?_⟩
  simp [process, run, step, ht, ht', begin, openBlock, startLine, shift]

namespace Surface

variable {file : Option String}

theorem name_of_parse {t t' : Token} (ht : t.kind = .kwModule) (ht' : t'.kind = .conid)
    {ts : List Token} {c : Concrete.Module} (h : Concrete.Module.parse (t :: t' :: ts) = .ok c) :
    c.name = t'.text := by
  let header : TopDecl := .header ⟨t.text, t.region⟩ ⟨t'.text, t'.region⟩
  have hfirst : topDecl (t :: t' :: ts) = .ok (header, ts) := by
    simp [topDecl, Parser.peek, ht, ht', Parser.tok, Bind.bind, Parser.bind, Pure.pure, Parser.pure,
      header]
  obtain ⟨more, hmore⟩ : ∃ more : Parser (List (Tok .itemSep × TopDecl)),
      Parser.sepBy .itemSep topDecl (t :: t' :: ts) =
        (more >>= fun ds => pure ⟨header, ds⟩) ts := ⟨_, Parser.bind_of_ok hfirst⟩
  rw [Concrete.Module.parse.eq_2 _ (List.cons_ne_nil _ _), hmore] at h
  cases hds : more ts with
  | error rest =>
    rw [Parser.bind_of_error hds] at h
    cases h
  | ok x =>
    obtain ⟨ds, rest⟩ := x
    rw [Parser.bind_of_ok hds] at h
    cases rest with
    | nil =>
      cases h
      rfl
    | cons _ _ => cases h

theorem name_of_header {w : Int} {name r : List Char} {m : Module}
    (hname : Lex.IsPiece ⟨.token .conid, name⟩ r)
    (h : parseModule w file (String.ofList ("module ".toList ++ (name ++ r))) = .ok m) :
    m.name = String.ofList name := by
  obtain ⟨c, hc, hm⟩ := name_parseModule h
  obtain ⟨t, t', ts, htokens, ht, ht', htext⟩ := Lex.tokens_of_header hname
  rw [readModule, conclude_eq_ok_iff, String.toList_ofList] at hc
  obtain ⟨hnone, hparse⟩ := hc
  rw [layoutTokens, hnone, htokens] at hparse
  obtain ⟨out, hout⟩ := Layout.process_header (w := w) ht ht' ts
  replace hparse : Concrete.Module.parse (Layout.process w (t :: t' :: ts)) = .ok c := hparse
  rw [hout] at hparse
  rw [hm, name_of_parse ht ht' hparse, htext]

end Surface

namespace Prelude

/-- The module that is checked; there is an empty one if the text cannot be read. -/
def tree : Surface.Module := parsed.toOption.getD (.empty preludeModule)

theorem source_eq_header :
    ∃ r, source = String.ofList ("module ".toList ++ ("Prelude".toList ++ '\n' :: r)) := by
  obtain ⟨l, ls, hlines⟩ : ∃ l ls, lines = "module Prelude" :: l :: ls := ⟨_, _, rfl⟩
  refine ⟨"\n".toList.intercalate ((l :: ls).map String.toList) ++ "\n".toList, ?_⟩
  rw [source, hlines, ← String.toList_inj, String.toList_append, String.toList_intercalate,
    List.map_cons, List.map_cons, List.intercalate_cons_cons, String.toList_ofList]
  simp

theorem name_tree : tree.name = preludeModule := by
  rw [tree]
  cases hparsed : parsed with
  | error e => rfl
  | ok m =>
    obtain ⟨r, hr⟩ := source_eq_header
    rw [parsed, hr] at hparsed
    have hname : Lex.IsPiece ⟨.token .conid, "Prelude".toList⟩ ('\n' :: r) :=
      Lex.isPiece_conid (by decide) fun d hd => by cases hd; decide
    exact Surface.name_of_header hname hparsed

theorem checked_eq : checked = (Check.run tree []).checked := rfl

theorem sourced_checked : checked.Sourced preludeModule [] :=
  name_tree ▸ Check.sourced_run fun _ h => absurd h List.not_mem_nil

/-- All names in scope of the bundled module are its own. -/
theorem module_of_scope {space : Namespace} {occ : String} {x : Declared}
    (hx : x ∈ checked.globals.scope.lookup space occ) : x.name.module = preludeModule := by
  obtain ⟨-, hsource⟩ := sourced_checked.globals.scope space occ x hx
  refine hsource.resolve_right ?_
  rintro ⟨x, hx, -⟩
  cases hx

/-- There are no errors in the bundled module. It is read whether or not that is so. -/
def Accepted : Prop := Check.module tree [] = .ok checked

theorem known_of_accepted (h : Accepted) (space : Namespace) (occ : String) :
    ∀ x ∈ checked.globals.scope.lookup space occ, (checked.globals.entity? x.name).isSome :=
  Check.known_of_module (fun _ h => absurd h List.not_mem_nil) h space occ

/-- What a module that imports nothing knows, it introduces, or it is one of the built-in entities
of lists. -/
theorem introduced_of_known (m : Surface.Module) :
    ∀ p ∈ (Check.run m []).checked.globals.entities,
      (∃ k ∈ m.introduced, p.2.name.occ = k.2) ∨
        ∃ e ∈ Check.Declare.listEntities, p.2.name = e.name := by
  refine (Check.elaborated_of_inductive (I := fun d => ∀ p ∈ d.globals.entities,
    (∃ k ∈ m.introduced, p.2.name.occ = k.2) ∨
      ∃ e ∈ Check.Declare.listEntities, p.2.name = e.name)
    (fun d d' h hd => ?_) (List.forall_mem_nil _)).2
  cases h with
  | report | bind | inst | fixity => exact hd
  | wireIn he => exact Table.forall_mem_put hd (.inr ⟨_, he, rfl⟩)
  | declare hname _ _ hintro | complete hname _ hintro =>
    exact Table.forall_mem_put hd (.inl ⟨_, hintro, congrArg Name.occ hname⟩)
  | sign s loc h => exact Table.forall_mem_put hd (.inl ⟨_, Check.signed_mem_introduced h, rfl⟩)
  | identify occ s loc hintro => exact Table.forall_mem_put hd (.inl ⟨_, hintro, rfl⟩)

theorem entity?_eq_none {n : Name} {c : Char} (hc : c ∈ n.occ.toList) (hsource : c ∉ source.toList)
    (hlist : ∀ e ∈ Check.Declare.listEntities, c ∉ e.name.occ.toList) :
    checked.globals.entity? n = none := by
  refine Option.eq_none_iff_forall_ne_some.2 fun e he => ?_
  have hmem := Table.mem_of_get? he
  obtain rfl : n = e.name := sourced_checked.keyed _ hmem
  rw [checked_eq] at hmem
  rcases introduced_of_known tree _ hmem with ⟨k, hk, hocc⟩ | ⟨e', he', hname⟩
  · rw [hocc] at hc
    rw [tree] at hk
    cases hparsed : parsed with
    | error e =>
      rw [hparsed] at hk
      cases hk
    | ok m =>
      rw [hparsed] at hk
      exact hsource (Surface.mem_source_of_introduced hparsed hk hc)
  · exact hlist e' he' (hname ▸ hc)

/-- A text has the bytes of its characters. -/
theorem mem_toByteArray {s : String} {c : Char} (hc : c ∈ s.toList) {b : UInt8}
    (hb : b ∈ String.utf8EncodeChar c) : b ∈ s.toByteArray.data.toList := by
  rw [← String.utf8Encode_toList, List.utf8Encode, List.data_toByteArray]
  exact List.mem_flatMap.2 ⟨c, hc, hb⟩

theorem not_mem_source : 'z' ∉ source.toList := by
  -- bytes are looked at, as reading the characters of the lines back takes much longer
  have hlines : ∀ l ∈ lines, 122 ∉ l.toByteArray.data.toList := by decide +kernel
  intro h
  rw [source, String.toList_append, String.toList_intercalate, List.mem_append] at h
  rcases h with h | h
  · rcases Path.mem_intercalate h with h | ⟨cs, hcs, hz⟩
    · exact absurd h (by decide)
    · obtain ⟨l, hl, rfl⟩ := List.mem_map.1 hcs
      exact hlines l hl (mem_toByteArray hz (by decide))
  · exact absurd h (by decide)

theorem checked_of_read {w : Option Int} {k : Checked} (h : read w = .ok k) : k = checked := by
  cases w with
  | none => cases h
  | some w =>
    rw [read] at h
    split at h
    · exact (Except.ok.inj h).symm
    · cases h

end Prelude

end TypeLens
