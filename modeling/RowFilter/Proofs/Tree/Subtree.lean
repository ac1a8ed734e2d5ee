import RowFilter.Proofs.Tree.Ancestry

/-!
# Subtrees

The subtree of a node is where one gets from it by child links, and the nodes
above a node are where one gets by parent links. In an assembled tree both follow
from the order of storage: a subtree is a row of places that ends with its root.

* `Tree.Under`, `Tree.Above`: the ways down from a node and up to one;
* `Tree.Holds.subexpression`: the parts of an expression stand in its places one by
  one;
* `Tree.Holds.under_iff`: the places of a subtree;
* `Tree.mem_ancestors_iff`: the ancestors of a node are the nodes above it.
-/

namespace RowFilter.Tree

variable {t : Tree}

/-- The node is in the subtree of `top`. -/
inductive Under (t : Tree) (top : Nat) : Nat → Prop
  | self (inside : top < t.count) : Under t top top
  | left {id l r : Nat} (above : Under t top id) (children : t.children? id = some (l, r)) :
      Under t top l
  | right {id l r : Nat} (above : Under t top id) (children : t.children? id = some (l, r)) :
      Under t top r

/-- Parent links lead from the node to `top`, which is not the node itself. -/
inductive Above (t : Tree) (top : Nat) : Nat → Prop
  | parent {id : Nat} (parent : t.parent? id = some top) : Above t top id
  | beyond {id next : Nat} (parent : t.parent? id = some next) (above : Above t top next) :
      Above t top id

theorem Under.inside {top id : Nat} (h : t.Under top id) : top < t.count := by
  induction h with
  | self inside => exact inside
  | left _ _ ih => exact ih
  | right _ _ ih => exact ih

theorem Above.inside {top id : Nat} (h : t.Above top id) : id < t.count := by
  cases h with
  | parent parent => exact parent?_lt_count parent
  | beyond parent _ => exact parent?_lt_count parent

theorem Under.trans {top mid id : Nat} (first : t.Under top mid) (second : t.Under mid id) :
    t.Under top id := by
  induction second with
  | self => exact first
  | left _ children ih => exact ih.left children
  | right _ children ih => exact ih.right children

theorem Above.children? {e : Expr Value} {top id : Nat} (h : (Tree.ofExpr e).Above top id) :
    ∃ l r, (Tree.ofExpr e).children? top = some (l, r) := by
  induction h with
  | parent parent =>
    obtain ⟨-, -, l, r, children, -⟩ := ofExpr_parent parent
    exact ⟨l, r, children⟩
  | beyond _ _ ih => exact ih

theorem children?_eq_some_iff {id l r : Nat} :
    t.children? id = some (l, r) ↔ ∃ op, t.node? id = some (.binary op l r) := by
  unfold children?
  split
  · next op l' r' node => simp [node]
  · next other => simpa using fun op => other op l r

/-- The parts of an expression, in their order, have the places of the expression one by one. -/
theorem Holds.subexpression {start : Nat} {above : Option NodeId} {e : Expr Value}
    (h : t.Holds start above e) {i : Nat} {part : Expr Value}
    (found : e.subexpressions[i]? = some part) :
    ∃ start' above', t.Holds start' above' part ∧ part.place start' = start + i := by
  have only {k : Nat} {whole : Expr Value} (found : [whole][k]? = some part) :
      k = 0 ∧ whole = part := by
    rwa [List.getElem?_singleton, Option.ite_none_right_eq_some, Option.some.injEq] at found
  induction e generalizing start above i with
  | binary op l r hl hr =>
    have parts : (Expr.binary op l r).subexpressions =
        l.subexpressions ++ (r.subexpressions ++ [.binary op l r]) := List.append_assoc _ _ _
    rw [parts] at found
    by_cases inLeft : i < l.size
    · rw [List.getElem?_append_left (by simpa using inLeft)] at found
      exact hl h.left found
    rw [List.getElem?_append_right (by simpa using inLeft), Expr.length_subexpressions] at found
    by_cases inRight : i - l.size < r.size
    · rw [List.getElem?_append_left (by simpa using inRight)] at found
      obtain ⟨start', above', holds, place⟩ := hr h.right found
      exact ⟨start', above', holds, by omega⟩
    · rw [List.getElem?_append_right (by simpa using inRight), Expr.length_subexpressions] at found
      obtain ⟨last, rfl⟩ := only found
      have place := Expr.place_binary op l r start
      exact ⟨start, above, h, by omega⟩
  | _ =>
    obtain ⟨rfl, rfl⟩ := only found
    exact ⟨start, above, h, rfl⟩

theorem Holds.part {start : Nat} {above : Option NodeId} {e : Expr Value}
    (h : t.Holds start above e) {id : Nat} (first : start ≤ id) (last : id ≤ e.place start) :
    ∃ start' above' part, t.Holds start' above' part ∧ part.place start' = id := by
  have inside : id - start < e.subexpressions.length := by
    have := e.place_succ start
    rw [Expr.length_subexpressions]
    omega
  obtain ⟨start', above', holds, place⟩ := h.subexpression (List.getElem?_eq_getElem inside)
  exact ⟨start', above', _, holds, by omega⟩

theorem ofExpr_part {e : Expr Value} {id : Nat} (inside : id < (Tree.ofExpr e).count) :
    ∃ start above part, (Tree.ofExpr e).Holds start above part ∧ part.place start = id := by
  have last := e.place_succ 0
  rw [ofExpr_count] at inside
  exact (ofExpr_holds e).part (Nat.zero_le id) (by omega)

/-- Every operator of an assembled tree is the last node of a part of its expression, and its links
lead to the operands of that part. -/
theorem ofExpr_operator {e : Expr Value} {id left right : NodeId} {op : BinaryOp}
    (h : (Tree.ofExpr e).node? id = some (.binary op left right)) :
    ∃ start above l r, (Tree.ofExpr e).Holds start above (.binary op l r) ∧
      (Expr.binary op l r).place start = id ∧ l.place start = left ∧
      r.place (start + l.size) = right := by
  obtain ⟨start, above, part, holds, rfl⟩ := ofExpr_part (node?_lt_count h)
  have top := holds.node?
  rw [h, Option.some.injEq] at top
  cases part with
  | binary op' l r =>
    obtain ⟨rfl, rfl, rfl⟩ := Node.binary.inj top
    exact ⟨start, above, l, r, holds, rfl, rfl, rfl⟩
  | _ => cases top

/-- The operands of an operator inside an expression are inside it too, in front of the operator. -/
theorem Holds.operands_between {start : Nat} {above : Option NodeId} {e : Expr Value}
    (h : t.Holds start above e) {id : Nat} (first : start ≤ id) (last : id ≤ e.place start)
    {op : BinaryOp} {l r : Nat} (node : t.node? id = some (.binary op l r)) :
    start ≤ l ∧ l < id ∧ start ≤ r ∧ r < id := by
  induction e generalizing start above with
  | binary op' l' r' hl hr =>
    have lp := l'.place_succ start
    have rp := r'.place_succ (start + l'.size)
    have whole := Expr.place_binary op' l' r' start
    by_cases inLeft : id ≤ l'.place start
    · exact hl h.left first inLeft
    by_cases inRight : id ≤ r'.place (start + l'.size)
    · have := hr h.right (by omega) inRight
      omega
    · have own : id = (Expr.binary op' l' r').place start := by omega
      cases (own ▸ node).symm.trans h.node?
      have := l'.size_pos
      have := r'.size_pos
      omega
  | _ =>
    have own : id = start := by simp only [Expr.place, Expr.size] at last; omega
    cases (own ▸ node).symm.trans h.node?

/-- **The subtree of a node takes up the places from its first leaf to itself.** -/
theorem Holds.under_iff {start : Nat} {above : Option NodeId} {e : Expr Value}
    (h : t.Holds start above e) {id : Nat} :
    t.Under (e.place start) id ↔ start ≤ id ∧ id ≤ e.place start := by
  constructor
  · intro under
    induction under with
    | self =>
      have := e.place_succ start
      have := e.size_pos
      omega
    | left _ children ih =>
      obtain ⟨op, node⟩ := children?_eq_some_iff.1 children
      have := h.operands_between ih.1 ih.2 node
      omega
    | right _ children ih =>
      obtain ⟨op, node⟩ := children?_eq_some_iff.1 children
      have := h.operands_between ih.1 ih.2 node
      omega
  · rintro ⟨first, last⟩
    induction e generalizing start above with
    | binary op l r hl hr =>
      have root : t.Under ((Expr.binary op l r).place start) ((Expr.binary op l r).place start) :=
        .self (node?_lt_count h.node?)
      have whole := Expr.place_binary op l r start
      have lp := l.place_succ start
      have rp := r.place_succ (start + l.size)
      by_cases inLeft : id ≤ l.place start
      · exact (root.left h.children?).trans (hl h.left first inLeft)
      by_cases inRight : id ≤ r.place (start + l.size)
      · exact (root.right h.children?).trans (hr h.right (by omega) inRight)
      · have own : id = (Expr.binary op l r).place start := by omega
        exact own ▸ root
    | _ =>
      obtain rfl : id = start := by simp only [Expr.place, Expr.size] at last; omega
      exact .self (node?_lt_count h.node?)

theorem mem_ancestors_iff (up : t.Upward) {top id : Nat} :
    top ∈ t.ancestors id ↔ t.Above top id := by
  constructor
  · intro mem
    induction id using up.induction with
    | step id ih =>
      cases parent : t.parent? id with
      | none =>
        rw [ancestors_of_root parent] at mem
        cases mem
      | some next =>
        rw [ancestors_of_parent up parent] at mem
        rcases List.mem_cons.1 mem with rfl | mem
        · exact .parent parent
        · exact .beyond parent (ih next parent mem)
  · intro above
    induction above with
    | parent parent =>
      rw [ancestors_of_parent up parent]
      exact List.mem_cons_self
    | beyond parent _ ih =>
      rw [ancestors_of_parent up parent]
      exact List.mem_cons_of_mem _ ih

end RowFilter.Tree
