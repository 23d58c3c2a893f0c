import TypeLens.Render.Entity
import TypeLens.Source.Diagnostic

/-!
What the checker finds wrong with a module.
-/

namespace TypeLens.Check

/-- What a name that is not in scope should have been. -/
inductive Role
  | variable
  | dataConstructor
  | typeConstructor
  | typeClass
  | typeVariable
deriving DecidableEq, Repr

def Role.label : Role → String
  | .variable => "variable"
  | .dataConstructor => "data constructor"
  | .typeConstructor => "type constructor or class"
  | .typeClass => "type class"
  | .typeVariable => "type variable"

inductive Problem
  | mismatch (expected actual : Ty)
  | infiniteType (m : UVar) (t : Ty)
  | notInScope (role : Role) (occ : String)
  | ambiguousName (occ : String) (candidates : List Name)
  /-- A second declaration in the module. -/
  | declaredTwice (occ : String) (previous : Span)
  /-- A second definition in one place. -/
  | definedTwice (occ : String)
  | signatureTwice (occ : String)
  | signatureOfPattern (occ : String)
  | signatureWithoutBinding (occ : String)
  | classAsType (occ : String)
  | tooFewArguments (occ : String) (missing : Nat)
  | tooManyArguments (occ : String)
  | notAClass (occ : String)
  | methodContext
  | methodWithoutVariable (method cls tyvar : String)
  | illegalHead (cls : String)
  | instanceTwice (cls : String) (head : Ty) (previous : Span)
  | notAMethod (occ cls : String)
  | missingMethod (occ : String)
  | fixityWithoutBinding (op : String)
  | fixityTwice (op : String)
  | fixityConflict (left : String) (leftFixity : Fixity) (right : String) (rightFixity : Fixity)
  | noInstance (p : Pred) (use : String)
  | cannotDeduce (p : Pred) (use : String)
  | ambiguousType (p : Pred) (use : String)
  | notADataCon (occ : String)
  | patternNotADataCon (occ : String)
  | patternArity (occ : String) (expected given : Nat)
deriving DecidableEq, Repr

namespace Problem

/-- `s` for more than one. -/
def plural (n : Nat) : String := if n = 1 then "" else "s"

def quote (s : String) : String := "'" ++ s ++ "'"

def showTy (t : Ty) : String := t.render .never

def showPred (p : Pred) : String := "(" ++ p.render .never ++ ")"

/-- Where a constraint comes from. -/
def arising (use : String) : String := " arising from a use of " ++ quote use

def message : Problem → String
  | .mismatch expected actual =>
    "Couldn't match expected type " ++ quote (showTy expected) ++ " with actual type "
      ++ quote (showTy actual)
  | .infiniteType m t =>
    "Occurs check: cannot construct the infinite type: " ++ showTy (.uvar m) ++ " ~ " ++ showTy t
  | .notInScope role occ => "Not in scope: " ++ role.label ++ " " ++ quote occ
  | .ambiguousName occ _ => "Ambiguous occurrence " ++ quote occ
  | .declaredTwice occ _ => "Multiple declarations of " ++ quote occ
  | .definedTwice occ => "Conflicting definitions for " ++ quote occ
  | .signatureTwice occ => "Duplicate type signatures for " ++ quote occ
  | .signatureOfPattern occ =>
    "Type signatures for pattern-bound variables are not supported: " ++ quote occ
  | .signatureWithoutBinding occ =>
    "The type signature for " ++ quote occ ++ " lacks an accompanying binding"
  | .classAsType occ => "Class " ++ quote occ ++ " used as a type"
  | .tooFewArguments occ n =>
    "Expecting " ++ toString n ++ " more argument" ++ plural n ++ " to " ++ quote occ
  | .tooManyArguments occ => quote occ ++ " is applied to too many type arguments"
  | .notAClass occ => quote occ ++ " is not a class"
  | .methodContext => "Constraints on class method types are not supported"
  | .methodWithoutVariable method cls tyvar =>
    "The class method " ++ quote method ++ " mentions none of the type variables of the class "
      ++ quote (cls ++ " " ++ tyvar)
  | .illegalHead cls =>
    "Illegal instance declaration for " ++ quote cls
      ++ ": the instance head must be a type constructor applied to distinct type variables"
  | .instanceTwice cls head _ =>
    "Duplicate instance declarations: instance " ++ cls ++ " " ++ showTy head
  | .notAMethod occ cls => quote occ ++ " is not a (visible) method of class " ++ quote cls
  | .missingMethod occ => "No explicit implementation for " ++ quote occ
  | .fixityWithoutBinding op =>
    "The fixity signature for " ++ quote op ++ " lacks an accompanying binding"
  | .fixityTwice op => "Multiple fixity declarations for " ++ quote op
  | .fixityConflict l lf r rf =>
    "Precedence parsing error: cannot mix " ++ quote l ++ " [" ++ lf.render ++ "] and " ++ quote r
      ++ " [" ++ rf.render ++ "] in the same infix expression"
  | .noInstance p use => "No instance for " ++ showPred p ++ arising use
  | .cannotDeduce p use => "Could not deduce " ++ showPred p ++ arising use
  | .ambiguousType p use =>
    "Ambiguous type variable " ++ quote (showTy p.arg) ++ arising use
      ++ " prevents the constraint " ++ quote (showPred p) ++ " from being solved."
  | .notADataCon occ => quote occ ++ " is not a data constructor"
  | .patternNotADataCon occ => quote occ ++ " is not a data constructor"
  | .patternArity occ expected given =>
    "The constructor " ++ quote occ ++ " should have " ++ toString expected ++ " argument"
      ++ plural expected ++ ", but has been given " ++ toString given

def code : Problem → String
  | .mismatch _ _ | .infiniteType _ _ => "E-TYPE-MISMATCH"
  | .notInScope _ _ | .notADataCon _ => "E-NOT-IN-SCOPE"
  | .ambiguousName _ _ => "E-AMBIGUOUS"
  | .declaredTwice _ _ | .definedTwice _ | .signatureTwice _ => "E-DUPLICATE"
  | .signatureOfPattern _ | .signatureWithoutBinding _ => "E-SIG"
  | .classAsType _ | .tooFewArguments _ _ | .tooManyArguments _ | .notAClass _ => "E-KIND"
  | .methodContext | .methodWithoutVariable _ _ _ => "E-CLASS"
  | .illegalHead _ | .instanceTwice _ _ _ | .notAMethod _ _ => "E-INSTANCE"
  | .missingMethod _ => "W-MISSING-METHOD"
  | .fixityWithoutBinding _ | .fixityTwice _ | .fixityConflict _ _ _ _ => "E-FIXITY"
  | .noInstance _ _ | .cannotDeduce _ _ => "E-NO-INSTANCE"
  | .ambiguousType _ _ => "W-AMBIGUOUS"
  | .patternNotADataCon _ | .patternArity _ _ _ => "E-PATTERN"

def severity : Problem → Severity
  | .missingMethod _ | .ambiguousType _ _ => .warning
  | _ => .error

def notes : Problem → List String
  | .ambiguousName _ ns =>
    ns.map fun n => "either " ++ quote n.qualified ++ ", imported from " ++ quote n.module
  | .declaredTwice _ l => ["Declared at: " ++ l.render]
  | .instanceTwice _ _ l => ["Previously declared at: " ++ l.render]
  | _ => []

end Problem

/-- A problem and its place. -/
structure Report where
  problem : Problem
  loc : Span
deriving DecidableEq, Repr

def Report.isError (r : Report) : Bool := r.problem.severity = .error

def Report.diagnostic (r : Report) : Diagnostic :=
  { message := r.problem.message, code := some r.problem.code, phase := some .typecheck,
    severity := r.problem.severity, span := r.loc, notes := r.problem.notes }

end TypeLens.Check
