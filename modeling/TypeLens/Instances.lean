import TypeLens.Entity
import TypeLens.Table

/-!
The instances that are known, one for each class and head constructor, and how a constraint is
reduced through one of them.
-/

namespace TypeLens

abbrev InstanceEnv := Table (Name × Name) Instance

namespace InstanceEnv

def find? (env : InstanceEnv) (cls head : Name) : Option Instance := env.get? (cls, head)

/-- An instance whose class and head are taken is left out, and the holder is returned. -/
def add (env : InstanceEnv) (i : Instance) : InstanceEnv × Option Instance :=
  match env.find? i.cls i.head with
  | some held => (env, some held)
  | none => (env.put (i.cls, i.head) i, none)

def ofList (is : List Instance) : InstanceEnv := is.foldl (fun env i => (env.add i).1) []

/-- An instance chosen for a constraint, with its context at the constraint's type arguments. -/
structure Match where
  inst : Instance
  typeArgs : List Ty
  context : List Pred
deriving Repr

/-- Reduces a constraint on a constructor's application. -/
def match? (env : InstanceEnv) (p : Pred) : Option Match := do
  let (head, args) ← p.arg.unconApp?
  let inst ← env.find? p.cls head
  return ⟨inst, args, inst.context.map (·.substVars (assign inst.tyvars args))⟩

end InstanceEnv

end TypeLens
