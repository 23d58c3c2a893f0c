import TypeLens.Render.Type
import TypeLens.Entity

/-!
Declared entities, fixities and instances as the lines in which a user reads about them.
-/

namespace TypeLens

/-- A type as the argument of a constructor. -/
def Ty.renderArg (p : Policy) (t : Ty) : String := t.renderAt p .conArg []

def DataCon.render (p : Policy) (c : DataCon) : String :=
  match c.name.isOperator, c.argTypes with
  | true, [l, r] => l.renderArg p ++ " " ++ c.name.renderBetween p ++ " " ++ r.renderArg p
  | _, args => " ".intercalate (c.name.renderPrefixed p :: args.map (Ty.renderArg p))

def Identifier.renderMethod (p : Policy) (i : Identifier) : String :=
  "  " ++ i.name.renderPrefixed p ++ " :: " ++ i.scheme.body.render p

/-- A name with its type. -/
def renderTyped (p : Policy) (n : Name) (s : Scheme) : String :=
  n.renderPrefixed p ++ " :: " ++ s.render p

def Entity.render (p : Policy) : Entity → String
  | .tyCon t =>
    let head := " ".intercalate ("data" :: t.name.renderPrefixed p :: t.tyvars)
    if t.dataCons.isEmpty then head
    else head ++ " = " ++ " | ".intercalate (t.dataCons.map (DataCon.render p))
  | .typeClass c =>
    let head := "class " ++ c.name.render p ++ " " ++ c.tyvar
    if c.methods.isEmpty then head
    else "\n".intercalate ((head ++ " where") :: c.methods.map (Identifier.renderMethod p))
  | .dataCon c => renderTyped p c.name c.scheme
  | .ident i => renderTyped p i.name i.scheme

/-- Names of the bundled module, and names without a place, are described by their module. -/
def renderDefined (n : Name) (loc : Span) : String :=
  if !n.isExternal && loc.good then
    "-- Defined at " ++ loc.file.getD "None" ++ ":" ++ toString loc.start.line ++ ":"
      ++ toString loc.start.column
  else "-- Defined in '" ++ n.module ++ "'"

def Entity.renderInContext (p : Policy) (e : Entity) : String :=
  e.render p ++ "\t" ++ renderDefined e.name e.loc

def Fixity.renderFor (p : Policy) (f : Fixity) (n : Name) : String :=
  f.render ++ " " ++ n.renderBetween p

def Instance.render (p : Policy) (i : Instance) : String :=
  "instance " ++ renderContext (i.context.map (Pred.render p)) ++ i.cls.render p ++ " "
    ++ i.headTy.renderArg p ++ "\t" ++ renderDefined i.name i.loc

end TypeLens
