import TypeLens.Render.Entity

/-!
What an identifier denotes, for a reader: an entity whose parent is described too is left out, so
`[]` is described once, by its type.
-/

namespace TypeLens

/-- An entity with its fixity and the instances that concern it. -/
structure Info where
  entity : Entity
  fixity : Fixity
  instances : List Instance
deriving DecidableEq, Repr

namespace Info

/-- Leaves out the entities whose parent is among `infos`. -/
def withoutChildren (infos : List Info) : List Info :=
  let names := infos.map (·.entity.name)
  infos.filter fun i => !(i.entity.parent?.any names.contains)

def render (p : Policy) (i : Info) : String :=
  "\n".intercalate
    (i.entity.renderInContext p
      :: ((if i.fixity = .default then [] else [i.fixity.renderFor p i.entity.name])
        ++ i.instances.map (Instance.render p)))

/-- Descriptions with a blank line between two. -/
def renderAll (p : Policy) (infos : List Info) : String :=
  "\n\n".intercalate (infos.map (render p))

end Info

end TypeLens
