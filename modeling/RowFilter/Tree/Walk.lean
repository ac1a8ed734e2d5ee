import RowFilter.Tree.Basic

namespace RowFilter

variable {σ : Type}

/-- A callback: whether to go on, and the new state. -/
abbrev Callback (σ : Type) : Type := NodeId → σ → Bool × σ

/-- Shows nodes until the callback declines; whether it never did, and the last state. -/
def visitAll (f : Callback σ) : List NodeId → σ → Bool × σ
  | [], s => (true, s)
  | id :: ids, s =>
    match f id s with
    | (true, s) => visitAll f ids s
    | (false, s) => (false, s)

namespace Tree

def walkUp (t : Tree) (f : Callback σ) (id : NodeId) (s : σ) : σ :=
  (visitAll f (t.ancestors id) s).2

/-- A walk with a stack of nodes; those marked `true` have their children behind them. -/
def walkStack (t : Tree) (f : Callback σ) : Nat → List (NodeId × Bool) → σ → Bool × σ
  | _, [], s => (true, s)
  | 0, _ :: _, s => (false, s)
  | steps + 1, (id, expanded) :: stack, s =>
    match t.children? id, expanded with
    | some (l, r), false => t.walkStack f steps ((l, false) :: (r, false) :: (id, true) :: stack) s
    | _, _ =>
      match f id s with
      | (true, s) => t.walkStack f steps stack s
      | (false, s) => (false, s)

/-- The subtree of a node in post-order. Each node is on the stack at most twice. -/
def walkPostOrder (t : Tree) (f : Callback σ) (id : NodeId) (s : σ) : Bool × σ :=
  t.walkStack f (2 * t.count) [(id, false)] s

end Tree

end RowFilter
