import TypeLens.Source.Diagnostic
import TypeLens.Text.Escape

/-!
What can be wrong with a module whose tokens are in order.
-/

namespace TypeLens.Surface

inductive Misuse
  | lateHeader
  | lateImport
  | precedence (value : Nat)
  | instanceHead
  | context
  | typeApplication
  | tupleType
  | patternOperator (op : String)
deriving DecidableEq, Repr

def Misuse.message : Misuse → String
  | .lateHeader => "`module` header must be the first declaration in the file"
  | .lateImport => "imports must precede all other declarations"
  | .precedence n => "precedence " ++ toString n ++ " out of range (0-9)"
  | .instanceHead => "instance head must be a class applied to one type"
  | .context => "class context must be of the form `C a`"
  | .typeApplication => "only type constructors can be applied to arguments"
  | .tupleType => "tuple types are only allowed in class contexts"
  | .patternOperator op =>
    "operator `" ++ op ++ "` is not a constructor; only `:` may appear in patterns"

inductive Fault
  | misuse (m : Misuse) (loc : Span)
  /-- An integer literal has more digits than are read. -/
  | literalTooLong
  /-- A string literal has no value. -/
  | badString (e : Text.EscapeError)
deriving DecidableEq, Repr

end TypeLens.Surface
