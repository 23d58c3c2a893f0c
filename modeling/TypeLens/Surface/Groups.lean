import TypeLens.Graph
import TypeLens.Surface.Tree

/-!
Binding groups: bindings that refer to each other, a group after the groups it refers to.
-/

namespace TypeLens.Surface

mutual

/-- The variables and operators that an expression mentions, bound ones included. -/
def Expr.mentions : Expr → List String
  | .var n _ => [n]
  | .con _ _ => []
  | .lit _ _ => []
  | .app f a _ => f.mentions ++ a.mentions
  | .row e es _ => e.mentions ++ Expr.mentionsOperands es
  | .lambda _ e _ => e.mentions
  | .letIn bs e _ => Expr.mentionsBindings bs ++ e.mentions
  | .ifThenElse c y n _ => c.mentions ++ y.mentions ++ n.mentions
  | .caseOf s as _ => s.mentions ++ Expr.mentionsAlts as
  | .list es _ => Expr.mentionsList es
  | .par e _ => e.mentions

def Expr.mentionsList : List Expr → List String
  | [] => []
  | e :: es => e.mentions ++ Expr.mentionsList es

def Expr.mentionsOperands : List Operand → List String
  | [] => []
  | .mk op e :: es =>
    (if isConOperator op.name then [] else [op.name]) ++ e.mentions ++ Expr.mentionsOperands es

def Expr.mentionsAlts : List Alt → List String
  | [] => []
  | .mk _ e _ :: as => e.mentions ++ Expr.mentionsAlts as

def Expr.mentionsMatches : List Match → List String
  | [] => []
  | .mk _ e _ :: ms => e.mentions ++ Expr.mentionsMatches ms

def Expr.mentionsBindings : List Binding → List String
  | [] => []
  | .fn (.mk _ _ (.mk _ e _) ms _) :: bs =>
    e.mentions ++ Expr.mentionsMatches ms ++ Expr.mentionsBindings bs
  | .pat (.mk _ e _) :: bs => e.mentions ++ Expr.mentionsBindings bs

end

def Binding.mentions (b : Binding) : List String := Expr.mentionsBindings [b]

/-- The names that a binding defines and those that it mentions. -/
structure Dependencies where
  binders : List String
  mentions : List String
deriving Repr

def Binding.dependencies (b : Binding) : Dependencies := ⟨b.binders.map (·.1), b.mentions⟩

def owner? (ds : List Dependencies) (name : String) : Option Nat :=
  ds.findIdx? (·.binders.contains name)

/-- The bindings that one refers to, without the names in `skip`. -/
def references (ds : List Dependencies) (skip : List String) (i : Nat) : List Nat :=
  match ds[i]? with
  | some d => d.mentions.filterMap fun n => if skip.contains n then none else owner? ds n
  | none => []

/-- The groups of bindings by their positions; a name in `skip` is no reference. -/
def groupIndices (ds : List Dependencies) (skip : List String) : List (List Nat) :=
  let edges := (List.range ds.length).map (references ds skip)
  Graph.components (fun i => (edges[i]?).getD []) (List.range ds.length)

def groupsOf {α : Type} (xs : List (Dependencies × α)) (skip : List String) : List (List α) :=
  (groupIndices (xs.map (·.1)) skip).map (·.filterMap fun i => (xs[i]?).map (·.2))

theorem mem_of_mem_groupsOf {α : Type} {xs : List (Dependencies × α)} {skip : List String}
    {g : List α} (hg : g ∈ groupsOf xs skip) {a : α} (ha : a ∈ g) : ∃ x ∈ xs, x.2 = a := by
  obtain ⟨is, -, rfl⟩ := List.mem_map.1 hg
  obtain ⟨i, -, hi⟩ := List.mem_filterMap.1 ha
  obtain ⟨x, hx, rfl⟩ := Option.map_eq_some_iff.1 hi
  exact ⟨x, List.mem_of_getElem? hx, rfl⟩

def bindingGroups (bs : List Binding) (skip : List String) : List (List Binding) :=
  groupsOf (bs.map fun b => (b.dependencies, b)) skip

end TypeLens.Surface
