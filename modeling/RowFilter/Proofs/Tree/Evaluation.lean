import RowFilter.Proofs.Tree.Subtree
import RowFilter.Tree.Fold

namespace RowFilter

variable {β : Type}

namespace Fold

/-- What an operator comes to, given what its operands come to. -/
def binary (f : Fold β) : BinaryOp → NodeId → β → β → β
  | .and => f.and
  | .or => f.or
  | .equals => f.equals
  | .textMatch => f.textMatch

theorem visitor_binary (f : Fold β) (result : NodeId → Option β) (op : BinaryOp) (id l r : NodeId) :
    (f.visitor result).binary op id l r =
      (result l).bind fun x => (result r).map fun y => f.binary op id x y := by
  cases op <;> rfl

end Fold

/-- What an expression comes to, its first node being at `start`. -/
def Expr.evaluate (f : Fold β) (start : Nat) : Expr Value → β
  | .field name => f.field start name
  | .parameter => f.parameter start
  | .literal v => f.literal start v
  | .binary op l r =>
    f.binary op ((Expr.binary op l r).place start) (l.evaluate f start)
      (r.evaluate f (start + l.size))

namespace Tree

variable {t : Tree} {start : Nat} {above : Option NodeId} {e : Expr Value}

theorem evaluateWithin_binary {id l r : NodeId} {op : BinaryOp}
    (node : t.node? id = some (.binary op l r)) (f : Fold β) (depth : Nat) :
    t.evaluateWithin f (depth + 1) id =
      (t.evaluateWithin f depth l).bind fun x =>
        (t.evaluateWithin f depth r).map fun y => f.binary op id x y := by
  rw [evaluateWithin, accept, node, Option.map_some, Option.join_some]
  exact f.visitor_binary _ op id l r

/-- As many levels as an expression has nodes are enough to evaluate it. -/
theorem Holds.evaluateWithin (h : t.Holds start above e) (f : Fold β) {depth : Nat}
    (deep : e.size ≤ depth) :
    t.evaluateWithin f depth (e.place start) = some (e.evaluate f start) := by
  induction e generalizing start above depth with
  | binary op l r hl hr =>
    cases depth with
    | zero => exact absurd deep (by simp [Expr.size])
    | succ depth =>
      simp only [Expr.size, Nat.add_le_add_iff_right] at deep
      have left : t.evaluateWithin f depth (l.place start) = _ := hl h.left (by omega)
      have right : t.evaluateWithin f depth (r.place (start + l.size)) = _ :=
        hr h.right (by omega)
      rw [evaluateWithin_binary h.node?, left, right]
      rfl
  | _ =>
    cases depth with
    | zero => exact absurd deep (by simp [Expr.size])
    | succ depth =>
      rw [Tree.evaluateWithin, accept, h.node?]
      rfl

/-- **A fold over a tree is a fold over the expression that it holds.** -/
theorem Holds.evaluate (h : t.Holds start above e) (f : Fold β) :
    t.evaluate f (e.place start) = some (e.evaluate f start) := by
  have inside := h.count_le
  exact h.evaluateWithin f (by omega)

theorem evaluate_outside (f : Fold β) {id : Nat} (outside : t.count ≤ id) :
    t.evaluate f id = none := by
  have nothing : t.node? id = none := by
    rw [node?, Array.getElem?_eq_none outside, Option.map_none]
  rw [Tree.evaluate]
  cases t.count with
  | zero => rfl
  | succ n =>
    rw [Tree.evaluateWithin, accept, nothing]
    rfl

end Tree

/-! ## Reading expressions back -/

theorem Expr.evaluate_expr (start : Nat) (e : Expr Value) : e.evaluate Fold.expr start = e := by
  induction e generalizing start with
  | binary op l r hl hr =>
    rw [evaluate, hl, hr]
    cases op <;> rfl
  | _ => rfl

namespace Tree

variable {t : Tree} {start : Nat} {above : Option NodeId} {e : Expr Value}

theorem Holds.expr? (h : t.Holds start above e) : t.expr? (e.place start) = some e := by
  rw [Tree.expr?, h.evaluate, Expr.evaluate_expr]

/-- **Below a node is the part of the expression that has its place**, the parts taken operands
before their operator and left before right. -/
theorem expr?_ofExpr (e : Expr Value) (i : Nat) :
    (Tree.ofExpr e).expr? i = e.subexpressions[i]? := by
  cases found : e.subexpressions[i]? with
  | some part =>
    obtain ⟨start, above, holds, place⟩ := (ofExpr_holds e).subexpression found
    rw [Nat.zero_add] at place
    rw [← place]
    exact holds.expr?
  | none =>
    apply evaluate_outside
    rw [ofExpr_count, ← Expr.length_subexpressions]
    exact List.getElem?_eq_none_iff.1 found

theorem holds_of_expr? {i : Nat} {part : Expr Value} (h : (Tree.ofExpr e).expr? i = some part) :
    ∃ start above, (Tree.ofExpr e).Holds start above part ∧ part.place start = i := by
  rw [expr?_ofExpr] at h
  obtain ⟨start, above, holds, place⟩ := (ofExpr_holds e).subexpression h
  exact ⟨start, above, holds, by omega⟩

/-- In an assembled tree the right operand stands right in front of its operator, and the left one
in front of the subtree of the right one. -/
theorem operands_of_node {i left right : Nat} {op : BinaryOp}
    (h : (Tree.ofExpr e).node? i = some (.binary op left right)) :
    right + 1 = i ∧ ∃ r, (Tree.ofExpr e).expr? right = some r ∧ left + r.size = right := by
  obtain ⟨start, above, l, r, holds, rfl, rfl, rfl⟩ := ofExpr_operator h
  have place := Expr.place_binary op l r start
  have last := l.place_succ start
  have last' := r.place_succ (start + l.size)
  exact ⟨by omega, r, holds.right.expr?, by omega⟩

/-- The subtree of a node of an assembled tree takes up as many places as it has nodes, the last of
them its own. -/
theorem under_iff_of_expr? {i : Nat} {part : Expr Value}
    (h : (Tree.ofExpr e).expr? i = some part) :
    part.size ≤ i + 1 ∧ ∀ j : Nat, (Tree.ofExpr e).Under i j ↔ i < j + part.size ∧ j ≤ i := by
  obtain ⟨start, above, holds, rfl⟩ := holds_of_expr? h
  have last := part.place_succ start
  refine ⟨by omega, fun j => ?_⟩
  rw [holds.under_iff]
  omega

/-- **An assembled tree is its expression.** It has as many slots as the expression has nodes, the
last of them the root; what is read back at the places one by one are the parts of the expression in
post-order, so that the root gives back the whole. The subtree of a node fills the places up to its
own without a gap, and the operands of an operator are found right in front of it. -/
theorem ofExpr_faithful (e : Expr Value) :
    let t := Tree.ofExpr e
    t.count = e.size ∧ t.root + 1 = t.count ∧ t.expr? t.root = some e ∧
      (∀ i : Nat, t.expr? i = e.subexpressions[i]?) ∧
      (∀ (i : Nat) (part : Expr Value), t.expr? i = some part →
        part.size ≤ i + 1 ∧ ∀ j : Nat, t.Under i j ↔ i < j + part.size ∧ j ≤ i) ∧
      ∀ (i left right : Nat) (op : BinaryOp), t.node? i = some (.binary op left right) →
        right + 1 = i ∧ ∃ r, t.expr? right = some r ∧ left + r.size = right := by
  intro t
  have last : t.root + 1 = t.count := by
    rw [ofExpr_root, ofExpr_count, e.place_succ, Nat.zero_add]
  refine ⟨ofExpr_count e, last, ?_, expr?_ofExpr e, ?_, ?_⟩
  · rw [ofExpr_root]
    exact (ofExpr_holds e).expr?
  · intro i part below
    exact under_iff_of_expr? below
  · intro i left right op node
    exact operands_of_node node

theorem ofExpr_faithful_nested :
    let e : Expr Value := .binary .or (.binary .and (.field "a") .parameter)
      (.binary .equals (.field "b") (.literal (.string "x")))
    let t := Tree.ofExpr e
    let part : Expr Value := .binary .equals (.field "b") (.literal (.string "x"))
    t.expr? 5 = some part ∧ (part.size ≤ 5 + 1 ∧ ∀ j : Nat, t.Under 5 j ↔ 5 < j + part.size ∧ j ≤ 5) ∧
      t.node? 6 = some (.binary .or 2 5) ∧ 5 + 1 = 6 ∧ ∃ r, t.expr? 5 = some r ∧ 2 + r.size = 5 := by
  intro e t part
  obtain ⟨-, -, -, parts, subtrees, operands⟩ := ofExpr_faithful e
  have below : t.expr? 5 = some part := parts 5
  have root : t.node? 6 = some (.binary .or 2 5) := (ofExpr_holds e).node?
  exact ⟨below, subtrees 5 part below, root, operands 6 2 5 .or root⟩

end Tree

end RowFilter
