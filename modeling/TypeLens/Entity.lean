import TypeLens.Source.Span
import TypeLens.Ty.Scheme

/-!
What names denote: type constructors, data constructors, classes and identifiers, with fixities and
instances.
-/

namespace TypeLens

inductive Assoc
  | left
  | right
  | none
deriving DecidableEq, Repr

def Assoc.keyword : Assoc → String
  | .left => "infixl"
  | .right => "infixr"
  | .none => "infix"

structure Fixity where
  assoc : Assoc
  precedence : Int
deriving DecidableEq, Repr

/-- The fixity of operators that have none declared. -/
def Fixity.default : Fixity := ⟨.left, 9⟩

def Fixity.render (f : Fixity) : String := f.assoc.keyword ++ " " ++ toString f.precedence

/-- A data constructor of the type `parent`, whose variables its argument types mention. -/
structure DataCon where
  name : Name
  loc : Span
  parent : Name
  scheme : Scheme
  argTypes : List Ty
deriving DecidableEq, Repr

/-- A variable; the parent of a class method is its class. -/
structure Identifier where
  name : Name
  loc : Span
  scheme : Scheme
  parent : Option Name := none
deriving DecidableEq, Repr

structure TyCon where
  name : Name
  loc : Span
  tyvars : List String
  dataCons : List DataCon
deriving DecidableEq, Repr

structure TypeClass where
  name : Name
  loc : Span
  tyvar : String
  methods : List Identifier
deriving DecidableEq, Repr

inductive Entity
  | tyCon (t : TyCon)
  | dataCon (c : DataCon)
  | typeClass (c : TypeClass)
  | ident (i : Identifier)
deriving DecidableEq, Repr

namespace Entity

def name : Entity → Name
  | .tyCon t => t.name
  | .dataCon c => c.name
  | .typeClass c => c.name
  | .ident i => i.name

def loc : Entity → Span
  | .tyCon t => t.loc
  | .dataCon c => c.loc
  | .typeClass c => c.loc
  | .ident i => i.loc

/-- The declaration that an entity belongs to: a constructor's type, a method's class. -/
def parent? : Entity → Option Name
  | .dataCon c => some c.parent
  | .ident i => i.parent
  | _ => none

end Entity

/-- `context => cls (head tyvars…)`; `name` is the name of its dictionary. -/
structure Instance where
  name : Name
  loc : Span
  cls : Name
  head : Name
  tyvars : List String
  context : List Pred
deriving DecidableEq, Repr

namespace Instance

def headTy (i : Instance) : Ty := .conApp i.head (i.tyvars.map .var)

/-- Instances are the same if they differ in their place at most. -/
def same (i j : Instance) : Bool := { i with loc := j.loc } == j

/-- The type of its dictionary. -/
def dictTy (i : Instance) : Ty := (Scheme.mk i.tyvars i.context (.pred i.cls i.headTy)).toTy

end Instance

end TypeLens
