import TypeLens.Name

/-!
Types of the language and of core terms. A type constructor is applied to one argument at a time;
functions use the constructor `->`.
-/

namespace TypeLens

/-- The number of a unification variable. -/
abbrev UVar := Int

inductive Ty
  /-- A rigid or quantified variable. -/
  | var (name : String)
  /-- A unification variable. -/
  | uvar (id : UVar)
  | con (name : Name)
  | app (fn arg : Ty)
  /-- A class constraint: the type of its dictionaries. -/
  | pred (cls : Name) (arg : Ty)
  | forAll (tvs : List String) (body : Ty)
deriving DecidableEq, Repr, Inhabited

/-- A class constraint. -/
structure Pred where
  cls : Name
  arg : Ty
deriving DecidableEq, Repr

def Pred.ty (p : Pred) : Ty := .pred p.cls p.arg

namespace Ty

def apps (fn : Ty) (args : List Ty) : Ty := args.foldl .app fn

/-- A constructor with its arguments. -/
def conApp (c : Name) (args : List Ty) : Ty := apps (.con c) args

/-- The head of a chain of applications and its arguments. -/
def unapply : Ty → Ty × List Ty
  | .app f a => f.unapply.map id (· ++ [a])
  | t => (t, [])

/-- The constructor at the head and its arguments. -/
def unconApp? (t : Ty) : Option (Name × List Ty) :=
  match t.unapply with
  | (.con c, args) => some (c, args)
  | _ => none

/-- The number of variables and constructors in a type. -/
def size : Ty → Nat
  | .var _ => 1
  | .uvar _ => 1
  | .con _ => 1
  | .app t u => t.size + u.size
  | .pred _ t => t.size + 1
  | .forAll _ t => t.size

/-- Replaces free rigid variables; bound ones hide the outer ones, and nothing is renamed. -/
def substVars (f : String → Option Ty) : Ty → Ty
  | .var v => (f v).getD (.var v)
  | .uvar m => .uvar m
  | .con c => .con c
  | .app t u => .app (t.substVars f) (u.substVars f)
  | .pred c t => .pred c (t.substVars f)
  | .forAll tvs t => .forAll tvs (t.substVars fun v => if v ∈ tvs then none else f v)

/-- Replaces unification variables, once. -/
def substUvars (f : UVar → Option Ty) : Ty → Ty
  | .var v => .var v
  | .uvar m => (f m).getD (.uvar m)
  | .con c => .con c
  | .app t u => .app (t.substUvars f) (u.substUvars f)
  | .pred c t => .pred c (t.substUvars f)
  | .forAll tvs t => .forAll tvs (t.substUvars f)

/-- The free rigid variables from left to right, with repetitions. -/
def varOccurrences (bound : List String) : Ty → List String
  | .var v => if v ∈ bound then [] else [v]
  | .uvar _ => []
  | .con _ => []
  | .app t u => t.varOccurrences bound ++ u.varOccurrences bound
  | .pred _ t => t.varOccurrences bound
  | .forAll tvs t => t.varOccurrences (bound ++ tvs)

/-- The free rigid variables, each where it first occurs. -/
def freeVars (t : Ty) : List String := (t.varOccurrences []).eraseDups

/-- The unification variables from left to right, with repetitions. -/
def uvarOccurrences : Ty → List UVar
  | .var _ => []
  | .uvar m => [m]
  | .con _ => []
  | .app t u => t.uvarOccurrences ++ u.uvarOccurrences
  | .pred _ t => t.uvarOccurrences
  | .forAll _ t => t.uvarOccurrences

/-- The unification variables, each where it first occurs. -/
def uvars (t : Ty) : List UVar := t.uvarOccurrences.eraseDups

end Ty

/-- The images of `names`, in order, under `images`; of a repeated name the last one counts. -/
def assign {α : Type} (names : List String) (images : List α) (v : String) : Option α :=
  (names.zip images).reverse.lookup v

theorem assign_map {α β : Type} (f : α → β) (names : List String) (xs : List α) (v : String) :
    assign names (xs.map f) v = (assign names xs v).map f := by
  have hlookup (l : List (String × α)) :
      (l.map (Prod.map id f)).lookup v = (l.lookup v).map f := by
    induction l with
    | nil => rfl
    | cons p l ih =>
      obtain ⟨k, b⟩ := p
      simp only [List.map_cons, Prod.map, id, List.lookup_cons, ih]
      cases v == k with
      | true | false => rfl
  rw [assign, assign, List.zip_map_right, ← List.map_reverse, hlookup]

theorem assign_map_self {α : Type} (f : String → α) (names : List String) (v : String) :
    assign names (names.map f) v = if v ∈ names then some (f v) else none := by
  have hzip : names.zip (names.map f) = names.map fun w => (w, f w) := by
    induction names with
    | nil => rfl
    | cons n names ih => simp [ih]
  have hlookup (l : List String) :
      (l.map fun w => (w, f w)).lookup v = if v ∈ l then some (f v) else none := by
    induction l with
    | nil => rfl
    | cons w l ih =>
      by_cases hw : v = w
      · simp [hw]
      · have hne : (v == w) = false := beq_false_of_ne hw
        simp [List.lookup_cons, hne, hw, ih]
  rw [assign, hzip, ← List.map_reverse, hlookup]
  simp only [List.mem_reverse]

theorem mem_of_assign {α : Type} {names : List String} {xs : List α} {v : String} {x : α}
    (h : assign names xs v = some x) : x ∈ xs := by
  obtain ⟨l₁, l₂, hl, -⟩ := List.lookup_eq_some_iff.1 h
  have hmem : (v, x) ∈ names.zip xs := by
    rw [← List.mem_reverse, hl]
    simp
  exact (List.of_mem_zip hmem).2

theorem assign_eq_none {α : Type} {names : List String} {xs : List α} {v : String}
    (h : v ∉ names) : assign names xs v = none := by
  rw [assign, List.lookup_eq_none_iff]
  intro p hp
  have hmem := (List.of_mem_zip (List.mem_reverse.1 hp)).1
  exact bne_iff_ne.2 fun heq => h (heq ▸ hmem)

theorem assign_append {α : Type} {names names' : List String} {xs xs' : List α}
    (h : xs.length = names.length) (v : String) :
    assign (names ++ names') (xs ++ xs') v = (assign names' xs' v).or (assign names xs v) := by
  rw [assign, List.zip_append h.symm, List.reverse_append, List.lookup_append]
  rfl

theorem assign_cons {α : Type} (n : String) (names : List String) (x : α) (xs : List α)
    (v : String) : assign (n :: names) (x :: xs) v =
      (assign names xs v).or (if v = n then some x else none) := by
  have hlength : [x].length = [n].length := rfl
  refine (assign_append hlength v).trans (congrArg _ ?_)
  by_cases h : v = n
  · simp [assign, h]
  · simp [assign, h, List.lookup_cons, beq_false_of_ne h]

theorem exists_assign {α : Type} {names : List String} {xs : List α} {v : String}
    (hlength : xs.length = names.length) (hv : v ∈ names) : ∃ x, assign names xs v = some x := by
  induction names generalizing xs with
  | nil => cases hv
  | cons n names ih =>
    cases xs with
    | nil => cases hlength
    | cons x xs =>
      rw [assign_cons]
      by_cases hmem : v ∈ names
      · obtain ⟨y, hy⟩ := ih (Nat.succ.inj hlength) hmem
        exact ⟨y, by rw [hy]; rfl⟩
      · obtain rfl : v = n := (List.mem_cons.1 hv).resolve_right hmem
        exact ⟨x, by simp [assign_eq_none hmem]⟩

namespace Ty

theorem apps_append (t : Ty) (ts us : List Ty) : apps t (ts ++ us) = apps (apps t ts) us :=
  List.foldl_append

theorem apps_unapply (t : Ty) : apps t.unapply.1 t.unapply.2 = t := by
  induction t with
  | app f a ihf _ =>
    have hparts : (app f a).unapply = (f.unapply.1, f.unapply.2 ++ [a]) := rfl
    rw [hparts, apps_append, ihf]
    rfl
  | _ => rfl

theorem eq_conApp_of_unconApp? {t : Ty} {c : Name} {args : List Ty}
    (h : t.unconApp? = some (c, args)) : t = conApp c args := by
  unfold unconApp? at h
  split at h
  · next c' args' heq =>
    cases h
    have happs := apps_unapply t
    rw [heq] at happs
    exact happs.symm
  · cases h

theorem unapply_apps {t : Ty} {c : Name} {ts : List Ty} (h : t.unapply = (.con c, ts))
    (us : List Ty) : (apps t us).unapply = (.con c, ts ++ us) := by
  induction us generalizing t ts with
  | nil => rw [List.append_nil]; exact h
  | cons u us ih =>
    have happ : (app t u).unapply = (.con c, ts ++ [u]) := by
      rw [unapply, h]
      rfl
    have hrest := ih happ
    rw [List.append_assoc] at hrest
    exact hrest

theorem unconApp?_conApp (c : Name) (ts : List Ty) : (conApp c ts).unconApp? = some (c, ts) := by
  have hparts : (apps (.con c) ts).unapply = (.con c, [] ++ ts) := unapply_apps rfl ts
  rw [unconApp?, conApp, hparts, List.nil_append]

theorem size_pos (t : Ty) : 0 < t.size := by
  induction t with
  | var | uvar | con => exact Nat.one_pos
  | app t u iht _ => exact Nat.add_pos_left iht _
  | pred c t _ => exact Nat.succ_pos _
  | forAll tvs t ih => exact ih

theorem size_lt_of_mem_args {t u : Ty} {ts : List Ty} (h : u ∈ ts) : u.size < (apps t ts).size := by
  induction ts generalizing t with
  | nil => cases h
  | cons a ts ih =>
    have hmono (t : Ty) (us : List Ty) : t.size ≤ (apps t us).size := by
      induction us generalizing t with
      | nil => exact Nat.le_refl _
      | cons b us ihus => exact Nat.le_trans (Nat.le_add_right _ _) (ihus (.app t b))
    rcases List.mem_cons.1 h with rfl | h
    · have happ : (app t u).size = t.size + u.size := rfl
      have hpos := t.size_pos
      have hle := hmono (.app t u) ts
      have happs : apps t (u :: ts) = apps (.app t u) ts := rfl
      rw [happs]
      omega
    · exact ih h

end Ty

/-- Why a type cannot be applied to type arguments. -/
inductive TypeApplicationError
  | notPolymorphic
  | tooManyArguments
deriving DecidableEq, Repr

/-- A quantified type at the given arguments; variables that are left stay quantified. -/
def Ty.instantiate : Ty → List Ty → Except TypeApplicationError Ty
  | .forAll tvs body, args =>
    if tvs.length < args.length then .error .tooManyArguments
    else
      let inst := body.substVars (assign tvs args)
      .ok (if args.length < tvs.length then .forAll (tvs.drop args.length) inst else inst)
  | _, _ => .error .notPolymorphic

end TypeLens
