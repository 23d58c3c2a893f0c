import TypeLens.Typed.Tree

/-!
The nodes of a typed tree in reading order, and those of them that contain a point.
-/

namespace TypeLens.Typed

inductive Node
  | bind (b : Bind)
  | expr (e : Expr)
  | pat (p : Pat)
  | row (m : Match)
  | group (g : MatchGroup)

/-- Groups of equations have no place of their own. -/
def Node.loc : Node → Span
  | .bind b => b.loc
  | .expr e => e.loc
  | .pat p => p.loc
  | .row m => m.loc
  | .group _ => .unknown

def Node.expr? : Node → Option Expr
  | .expr e => some e
  | _ => none

def exprsOf (ns : List Node) : List Expr := ns.filterMap Node.expr?

mutual

/-- A pattern and the patterns in it, each before those within it. -/
def Pat.nodes : Pat → List Node
  | .con c ts ps t l => .pat (.con c ts ps t l) :: Pat.nodesOf ps
  | .par p l => .pat (.par p l) :: p.nodes
  | p => [.pat p]

def Pat.nodesOf : List Pat → List Node
  | [] => []
  | p :: ps => p.nodes ++ Pat.nodesOf ps

end

mutual

/-- An expression and the nodes in it, each before those within it. -/
def Expr.nodes : Expr → List Node
  | .head h l => [.expr (.head h l)]
  | .inst h ts ds l => [.expr (.inst h ts ds l), .expr (.head h .unknown)]
  | .lit v l => [.expr (.lit v l)]
  | .app f a l => .expr (.app f a l) :: (f.nodes ++ a.nodes)
  | .opApp x op y l => .expr (.opApp x op y l) :: (x.nodes ++ op.nodes ++ y.nodes)
  | .lambda g l => .expr (.lambda g l) :: g.nodes
  | .letIn bs e l => .expr (.letIn bs e l) :: (Bind.nodesOf bs ++ e.nodes)
  | .ifThenElse c y n l => .expr (.ifThenElse c y n l) :: (c.nodes ++ y.nodes ++ n.nodes)
  | .caseOf s g l => .expr (.caseOf s g l) :: (s.nodes ++ g.nodes)
  | .list es t l => .expr (.list es t l) :: Expr.nodesOf es
  | .par e l => .expr (.par e l) :: e.nodes

def Expr.nodesOf : List Expr → List Node
  | [] => []
  | e :: es => e.nodes ++ Expr.nodesOf es

def MatchGroup.nodes : MatchGroup → List Node
  | .mk ms ts t => .group (.mk ms ts t) :: Match.nodesOf ms

def Match.nodesOf : List Match → List Node
  | [] => []
  | .mk ps e l :: ms => .row (.mk ps e l) :: (Pat.nodesOf ps ++ e.nodes ++ Match.nodesOf ms)

def Bind.nodes : Bind → List Node
  | .fn i g l => .bind (.fn i g l) :: g.nodes
  | .pat p e is l => .bind (.pat p e is l) :: (p.nodes ++ e.nodes)
  | .abs tvs ds xs bs l => .bind (.abs tvs ds xs bs l) :: Bind.nodesOf bs

def Bind.nodesOf : List Bind → List Node
  | [] => []
  | b :: bs => b.nodes ++ Bind.nodesOf bs

end

def searched (bs : List Bind) : List Span :=
  (Bind.nodesOf bs).filterMap fun
    | .row _ => none
    | .group _ => none
    | n => some n.loc

structure Hits where
  bindings : List Bind
  expressions : List Expr
  patterns : List Pat

/-- What contains the point, both ends included; generated nodes contain no point. -/
def search (bs : List Bind) (p : Point) : Hits :=
  let found := (Bind.nodesOf bs).filter fun n => n.loc.contains p
  { bindings := found.filterMap fun | .bind b => some b | _ => none
    expressions := exprsOf found
    patterns := found.filterMap fun | .pat p => some p | _ => none }

end TypeLens.Typed
