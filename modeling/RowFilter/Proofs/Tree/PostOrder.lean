import RowFilter.Proofs.Tree.Layout
import RowFilter.Tree.Walk

namespace RowFilter

variable {σ : Type}

/-- How often a walk takes an entry from the stack for an expression: twice for an operator, once
for a leaf. -/
def Expr.visits {α : Type} : Expr α → Nat
  | .binary _ l r => l.visits + r.visits + 2
  | _ => 1

theorem Expr.visits_le {α : Type} (e : Expr α) : e.visits ≤ 2 * e.size := by
  induction e with
  | binary op l r hl hr => simp only [visits, size]; omega
  | _ => simp [visits, size]

/-- The places of an operator and its operands: first those of the left operand, then those of the
right one. -/
theorem Expr.range_binary {α : Type} (op : BinaryOp) (l r : Expr α) (start : Nat) :
    List.range' start (Expr.binary op l r).size =
      List.range' start l.size ++
        (List.range' (start + l.size) r.size ++ [(Expr.binary op l r).place start]) := by
  rw [place_binary, size, ← List.range'_1_concat, List.range'_append_1]
  rfl

theorem visitAll_append (f : Callback σ) (first rest : List NodeId) (s : σ) :
    visitAll f (first ++ rest) s =
      match visitAll f first s with
      | (true, s) => visitAll f rest s
      | (false, s) => (false, s) := by
  induction first generalizing s with
  | nil => rfl
  | cons id ids ih =>
    simp only [List.cons_append, visitAll]
    rcases f id s with ⟨_ | _, s⟩
    · rfl
    · exact ih s

theorem visitAll_always (g : σ → NodeId → σ) (ids : List NodeId) (s : σ) :
    visitAll (fun id s => (true, g s id)) ids s = (true, ids.foldl g s) := by
  induction ids generalizing s with
  | nil => rfl
  | cons id ids ih => exact ih (g s id)

namespace Tree

/-- An operator makes way for its operands and stays behind them. -/
theorem walkStack_expand {t : Tree} {id l r : NodeId} (h : t.children? id = some (l, r))
    (f : Callback σ) (n : Nat) (stack : List (NodeId × Bool)) (s : σ) :
    t.walkStack f (n + 1) ((id, false) :: stack) s =
      t.walkStack f n ((l, false) :: (r, false) :: (id, true) :: stack) s := by
  simp only [walkStack, h]

/-- A leaf, and an operator whose operands are done, is shown. -/
theorem walkStack_show {t : Tree} {id : NodeId} {expanded : Bool}
    (h : t.children? id = none ∨ expanded = true)
    (f : Callback σ) (n : Nat) (stack : List (NodeId × Bool)) (s : σ) :
    t.walkStack f (n + 1) ((id, expanded) :: stack) s =
      match f id s with
      | (true, s) => t.walkStack f n stack s
      | (false, s) => (false, s) := by
  rcases h with leaf | rfl
  · rcases shown : f id s with ⟨_ | _, next⟩ <;> simp only [walkStack, leaf, shown]
  · cases children : t.children? id <;>
      rcases shown : f id s with ⟨_ | _, next⟩ <;>
        simp only [walkStack, children, shown]

/-- With an expression on top of the stack, a walk shows its nodes in the order of their places and
goes on with the rest of the stack. -/
theorem walkStack_holds {t : Tree} {start : Nat} {above : Option NodeId} {e : Expr Value}
    (h : t.Holds start above e) (f : Callback σ) (n : Nat) (stack : List (NodeId × Bool)) (s : σ) :
    t.walkStack f (e.visits + n) ((e.place start, false) :: stack) s =
      match visitAll f (List.range' start e.size) s with
      | (true, s) => t.walkStack f n stack s
      | (false, s) => (false, s) := by
  induction e generalizing start above n stack s with
  | binary op l r hl hr =>
    have count : (Expr.binary op l r).visits + n = (l.visits + (r.visits + (n + 1))) + 1 := by
      simp only [Expr.visits]
      omega
    rw [count, walkStack_expand h.children?, hl h.left, Expr.range_binary, visitAll_append]
    rcases visitAll f (List.range' start l.size) s with ⟨_ | _, s⟩
    · rfl
    simp only
    rw [hr h.right, visitAll_append]
    rcases visitAll f (List.range' (start + l.size) r.size) s with ⟨_ | _, s⟩
    · rfl
    simp only
    -- the operator is on top again, its operands done
    rw [walkStack_show (.inr rfl), visitAll]
    rcases f _ s with ⟨_ | _, s⟩ <;> rfl
  | _ =>
    have leaf := h.node?
    simp only [Expr.place, Expr.size, Nat.add_sub_cancel, Expr.top] at leaf
    simp only [Expr.place, Expr.size, Nat.add_sub_cancel, Expr.visits, Nat.add_comm 1 n,
      List.range'_one, visitAll]
    rw [walkStack_show (.inl (by simp [Tree.children?, leaf]))]
    rcases f start s with ⟨_ | _, s⟩ <;> rfl

/-- With the expression alone on the stack, any number of steps that suffices does the same. -/
theorem walkStack_single {t : Tree} {start : Nat} {above : Option NodeId} {e : Expr Value}
    (h : t.Holds start above e) (f : Callback σ) (s : σ) {steps : Nat} (enough : e.visits ≤ steps) :
    t.walkStack f steps [(e.place start, false)] s = visitAll f (List.range' start e.size) s := by
  obtain ⟨more, rfl⟩ := Nat.exists_eq_add_of_le enough
  rw [walkStack_holds h]
  rcases visitAll f (List.range' start e.size) s with ⟨_ | _, s⟩
  · rfl
  · cases more <;> rfl

theorem Holds.visits_le {t : Tree} {start : Nat} {above : Option NodeId} {e : Expr Value}
    (h : t.Holds start above e) : e.visits ≤ 2 * t.count := by
  have := e.visits_le
  have := h.count_le
  omega

/-- **A walk shows a subtree in the order of its places.** It does so until the callback declines,
and it says whether the callback never did. -/
theorem walkPostOrder_holds {t : Tree} {start : Nat} {above : Option NodeId} {e : Expr Value}
    (h : t.Holds start above e) (f : Callback σ) (s : σ) :
    t.walkPostOrder f (e.place start) s = visitAll f (List.range' start e.size) s :=
  walkStack_single h f s h.visits_le

end Tree

end RowFilter
