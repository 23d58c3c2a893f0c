import TypeLens.Table

/-!
Depth-first search of finite directed graphs: finishing order, strongly connected components with
dependencies first, and one cycle, if there is any.
-/

namespace TypeLens.Graph

variable {α : Type} [DecidableEq α] (next : α → List α)

/-- The nodes that were entered and those that were left, the latter in the order of leaving. -/
structure Visited (α : Type) where
  entered : List α := []
  left : List α := []

/-- Enters a node that is new, then its successors, at most `fuel` deep. -/
def visit : Nat → Visited α → α → Visited α
  | 0, s, _ => s
  | fuel + 1, s, v =>
    if v ∈ s.entered then s
    else
      let r := (next v).foldl (visit fuel) { s with entered := v :: s.entered }
      { r with left := r.left ++ [v] }

/-- All nodes that can be reached from the roots, each after the ones it leads to where it can be;
`size` bounds their number. -/
def finishOrder (size : Nat) (roots : List α) : List α :=
  (roots.foldl (visit next size) {}).left

/-- For each node the nodes that paths lead to from it; the empty path counts. -/
abbrev Reach (α : Type) := Table α (List α)

def reach (nodes : List α) : Reach α :=
  nodes.map fun v => (v, finishOrder next nodes.length [v])

def Reach.reaches (r : Reach α) (v w : α) : Bool := ((r.get? v).getD []).contains w

/-- Whether each of two nodes leads to the other. -/
def Reach.connected (r : Reach α) (v w : α) : Bool := r.reaches v w && r.reaches w v

/-- For each component of `nodes` one list, in the order in which their last nodes stand in
`order`. -/
def componentsIn (r : Reach α) (nodes : List α) : List α → List (List α)
  | [] => []
  | v :: order =>
    if order.any (r.connected v) then componentsIn r nodes order
    else nodes.filter (r.connected v) :: componentsIn r nodes order

/-- The strongly connected components, each after those it leads to. -/
def components (nodes : List α) : List (List α) :=
  componentsIn (reach next nodes) nodes (finishOrder next nodes.length nodes)

/-- A search for a cycle: the nodes that were entered, and the cycle once it is found. -/
structure Hunt (α : Type) where
  entered : List α := []
  cycle : Option (List α) := none

/-- The cycle that an edge back to `v` closes on the path whose last node stands first. -/
def closing (path : List α) (v : α) : List α :=
  v :: (path.takeWhile (· ≠ v)).reverse ++ [v]

/-- Looks for a cycle below a new node; `path` leads to it, last node first. -/
def hunt : Nat → List α → Hunt α → α → Hunt α
  | 0, _, s, _ => s
  | fuel + 1, path, s, v =>
    if s.cycle.isSome then s
    else if v ∈ path then { s with cycle := some (closing path v) }
    else if v ∈ s.entered then s
    else (next v).foldl (hunt fuel (v :: path)) { s with entered := v :: s.entered }

/-- The first cycle of the search from the roots, its first node repeated at its end. -/
def findCycle (nodes : List α) : Option (List α) :=
  (nodes.foldl (hunt next (nodes.length + 1) []) {}).cycle

end TypeLens.Graph
