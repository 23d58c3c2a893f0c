import TypeLens.Instances
import TypeLens.Scope

/-!
What is known of the top level of a module, and what it makes known to modules that import it.
-/

namespace TypeLens

/-- What a module makes visible; each entity stands where it was first declared. -/
structure Exports where
  module : String
  entities : Table Name Entity := []
  fixities : Table Name Fixity := []
  instances : List Instance := []
deriving Repr

namespace Exports

def addEntity (x : Exports) (e : Entity) : Exports :=
  { x with entities := x.entities.put e.name e }

def addFixity (x : Exports) (n : Name) (f : Fixity) : Exports :=
  { x with fixities := x.fixities.put n f }

def addInstance (x : Exports) (i : Instance) : Exports :=
  { x with instances := x.instances ++ [i] }

end Exports

/-- The names in scope of a module, with what they denote. -/
structure Globals where
  scope : Scope
  entities : Table Name Entity := []
  fixities : Table Name Fixity := []
  instances : List Instance := []
deriving Repr

namespace Globals

def empty (module : String) : Globals := { scope := ⟨module, []⟩ }

def module (g : Globals) : String := g.scope.module

def entity? (g : Globals) (n : Name) : Option Entity := g.entities.get? n

def fixityOf (g : Globals) (n : Name) : Fixity := (g.fixities.get? n).getD .default

/-- The instances of which each constraint finds at most one. -/
def instanceEnv (g : Globals) : InstanceEnv := .ofList g.instances

def instancesOfClass (g : Globals) (cls : Name) : List Instance :=
  g.instances.filter (·.cls == cls)

def instancesOfTyCon (g : Globals) (head : Name) : List Instance :=
  g.instances.filter (·.head == head)

def addEntity (g : Globals) (e : Entity) : Globals :=
  { g with entities := g.entities.put e.name e, scope := g.scope.add ⟨e.name, e.loc⟩ }

def addFixity (g : Globals) (n : Name) (f : Fixity) : Globals :=
  { g with fixities := g.fixities.put n f }

def addInstance (g : Globals) (i : Instance) : Globals :=
  { g with instances := g.instances ++ [i] }

/-- Adds an instance unless it is there already. -/
def importInstance (g : Globals) (i : Instance) : Globals :=
  if g.instances.any (·.same i) then g else g.addInstance i

/-- Brings what a module exports into scope. -/
def importAll (g : Globals) (x : Exports) : Globals :=
  let g := x.entities.values.foldl addEntity g
  let g := { g with fixities := g.fixities.putAll x.fixities }
  x.instances.foldl importInstance g

end Globals

end TypeLens
