import TypeLens.Info

/-!
What can be written for a reader: of a name without text nobody can say whether it is symbolic.
-/

namespace TypeLens

def Name.hasText (n : Name) : Bool := n.occ != ""

/-- The constructors in a type. -/
def Ty.constructors : Ty → List Name
  | .var _ => []
  | .uvar _ => []
  | .con c => [c]
  | .app t u => t.constructors ++ u.constructors
  | .pred _ t => t.constructors
  | .forAll _ t => t.constructors

def Ty.isWritable (t : Ty) : Bool := t.constructors.all Name.hasText

def Scheme.isWritable (s : Scheme) : Bool :=
  s.preds.all (·.arg.isWritable) && s.body.isWritable

def DataCon.isWritable (c : DataCon) : Bool :=
  c.name.hasText && c.argTypes.all Ty.isWritable

/-- Class names are not symbolic whatever their text. -/
def Entity.isWritable : Entity → Bool
  | .tyCon t => t.name.hasText && t.dataCons.all DataCon.isWritable
  | .typeClass c => c.methods.all fun m => m.name.hasText && m.scheme.body.isWritable
  | .dataCon c => c.name.hasText && c.scheme.isWritable
  | .ident i => i.name.hasText && i.scheme.isWritable

def Instance.isWritable (i : Instance) : Bool :=
  i.head.hasText && i.context.all (·.arg.isWritable)

def Info.isWritable (i : Info) : Bool :=
  i.entity.isWritable && (i.fixity = .default || i.entity.name.hasText) &&
    i.instances.all Instance.isWritable

end TypeLens
