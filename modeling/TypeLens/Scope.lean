import TypeLens.Source.Span
import TypeLens.Name
import TypeLens.Table

/-!
Which top-level names an occurrence can mean in a module. The module's own name hides imported ones;
imported names of one spelling stand side by side and make it ambiguous.
-/

namespace TypeLens

/-- A name and the place of its declaration. -/
structure Declared where
  name : Name
  loc : Span
deriving DecidableEq, Repr

structure Scope where
  module : String
  entries : Table (Namespace × String) (List Declared) := []
deriving Repr

namespace Scope

def lookup (s : Scope) (space : Namespace) (occ : String) : List Declared :=
  (s.entries.get? (space, occ)).getD []

/-- The names under one spelling once `d` has been added to those in `current`. -/
def merge (module : String) (current : List Declared) (d : Declared) : List Declared :=
  if current.any (·.name == d.name) then current
  else if d.name.module == module then current.filter (·.name.module == module) ++ [d]
  else if current.any (·.name.module == module) then current
  else current ++ [d]

def add (s : Scope) (d : Declared) : Scope :=
  let key := (d.name.space, d.name.occ)
  { s with entries := s.entries.put key (merge s.module (s.lookup key.1 key.2) d) }

def names (s : Scope) : List Declared := s.entries.values.flatten

/-- The name is the only one that its spelling can mean. -/
def unqualified (s : Scope) (n : Name) : Bool :=
  (s.lookup n.space n.occ).map (·.name) == [n]

end Scope

end TypeLens
