import TypeLens.Source.Span
import TypeLens.Render.Type

/-!
Typed pieces of source around a point, innermost first. Spans that are not nested count as equal, so
the order is that of one sorting procedure: a run at the start, then insertion by bisection.
-/

namespace TypeLens

inductive FragmentKind
  | binding
  | expression
  | pattern
deriving DecidableEq, Repr

structure Fragment where
  span : Span
  ty : Ty
  kind : FragmentKind
deriving DecidableEq, Repr

namespace BinarySort

variable {α : Type} (lt : α → α → Bool)

/-- The longest run in which each element stands to the one before as `keep` says, and the rest. -/
def run (keep : α → α → Bool) (last : α) : List α → List α × List α
  | [] => ([], [])
  | x :: xs =>
    if keep x last then (run keep x xs).map (x :: ·) id else ([], x :: xs)

/-- A strictly falling run is turned round. -/
def firstRun : List α → List α × List α
  | [] => ([], [])
  | [x] => ([x], [])
  | x :: y :: ys =>
    if lt y x then
      let r := run lt y ys
      ((x :: y :: r.1).reverse, r.2)
    else
      let r := run (fun a b => !lt a b) y ys
      (x :: y :: r.1, r.2)

/-- Where bisection between `l` and `r` places `p`; `fuel` bounds the halvings. -/
def position (p : α) (xs : List α) : Nat → Nat → Nat → Nat
  | 0, l, _ => l
  | fuel + 1, l, r =>
    if l < r then
      let m := l + (r - l) / 2
      if (xs[m]?).any (lt p) then position p xs fuel l m else position p xs fuel (m + 1) r
    else l

def insert (xs : List α) (p : α) : List α :=
  xs.insertIdx (position lt p xs xs.length 0 xs.length) p

def sort (xs : List α) : List α :=
  let r := firstRun lt xs
  r.2.foldl (insert lt) r.1

end BinarySort

namespace Fragment

/-- Innermost first. -/
def sort (fs : List Fragment) : List Fragment :=
  BinarySort.sort (fun a b => a.span.compare b.span < 0) fs

/-- The good spans of sorted fragments, each with its type. -/
def order (fs : List Fragment) : List (Extent × String) :=
  (sort fs).filterMap fun f => f.span.extent.map fun e => (e, f.ty.render .never)

end Fragment

end TypeLens
