import RowFilter.Proofs.Tree.Evaluation
import RowFilter.Proofs.Tree.Links

/-! A fold over a tree is run from a node down, which asks for the operands of an operator by
evaluating them, or along a table, which is filled in the order of storage and has them already. In
an assembled tree both come to the same at every node. -/

namespace RowFilter.Tree

variable {β : Type} {t : Tree} {f : Fold β}

def tableUpTo (t : Tree) (f : Fold β) (n : Nat) : Array (Option β) :=
  (List.range n).foldl (t.extend f) #[]

/-- What a node comes to depends on what its operands come to, and on no other node. -/
theorem accept_visitor_congr {result result' : NodeId → Option β} {id : Nat}
    (operands : ∀ l r : Nat, t.children? id = some (l, r) →
      result l = result' l ∧ result r = result' r) :
    t.accept (f.visitor result) id = t.accept (f.visitor result') id := by
  cases node : t.node? id with
  | none => rw [accept, accept, node]; rfl
  | some form =>
    cases form with
    | binary op l r =>
      obtain ⟨left, right⟩ := operands l r (children?_eq_some_iff.2 ⟨op, node⟩)
      rw [accept, accept, node]
      simp only [Option.map_some, f.visitor_binary, left, right]
    | _ => rw [accept, accept, node]; rfl

/-- **Evaluation is a recursion**: a node is visited with what its operands are evaluated to. -/
theorem ofExpr_evaluate (e : Expr Value) (f : Fold β) (id : Nat) :
    (Tree.ofExpr e).evaluate f id =
      ((Tree.ofExpr e).accept (f.visitor ((Tree.ofExpr e).evaluate f)) id).join := by
  by_cases inside : id < (Tree.ofExpr e).count
  · obtain ⟨start, above, part, holds, rfl⟩ := ofExpr_part inside
    rw [holds.evaluate, accept, holds.node?]
    cases part with
    | binary op l r =>
      simp only [Option.map_some, Expr.top, f.visitor_binary, holds.left.evaluate,
        holds.right.evaluate]
      rfl
    | _ => rfl
  · have nothing : (Tree.ofExpr e).node? id = none :=
      Option.eq_none_iff_forall_ne_some.2 fun _ node => inside (node?_lt_count node)
    rw [evaluate_outside f (Nat.le_of_not_lt inside), accept, nothing]
    rfl

/-- The table has one entry for each of the first `n` nodes, namely what it is evaluated to. -/
structure Filled (t : Tree) (f : Fold β) (n : Nat) (table : Array (Option β)) : Prop where
  size : table.size = n
  entry : ∀ id : Nat, id < n → table[id]? = some (t.evaluate f id)

/-- The next node finds its operands in the table and adds what it is evaluated to. -/
theorem Filled.extend {e : Expr Value} {n : Nat} {table : Array (Option β)}
    (h : (Tree.ofExpr e).Filled f n table) :
    (Tree.ofExpr e).Filled f (n + 1) ((Tree.ofExpr e).extend f table n) := by
  have entry : ((Tree.ofExpr e).accept (f.visitor fun child => (table[child]?).join) n).join =
      (Tree.ofExpr e).evaluate f n := by
    rw [ofExpr_evaluate, accept_visitor_congr]
    intro l r children
    obtain ⟨left, right, -⟩ := ofExpr_children children
    rw [h.entry l (ofExpr_upward e l n left).1, h.entry r (ofExpr_upward e r n right).1]
    exact ⟨rfl, rfl⟩
  rw [Tree.extend, entry]
  refine ⟨by rw [Array.size_push, h.size], fun id inside => ?_⟩
  by_cases own : id = n
  · rw [own, ← h.size, Array.getElem?_push_size]
  · have old : id < n := by omega
    rw [Array.getElem?_push_lt (h.size ▸ old), ← h.entry id old, Array.getElem?_eq_getElem]

theorem filled_tableUpTo (e : Expr Value) (f : Fold β) (n : Nat) :
    (Tree.ofExpr e).Filled f n ((Tree.ofExpr e).tableUpTo f n) := by
  induction n with
  | zero => exact ⟨rfl, nofun⟩
  | succ n ih =>
    rw [tableUpTo, List.range_succ, List.foldl_append]
    exact ih.extend

theorem ofExpr_evaluate_eq_some (e : Expr Value) (f : Fold β) {id : Nat}
    (inside : id < (Tree.ofExpr e).count) : ∃ x, (Tree.ofExpr e).evaluate f id = some x := by
  obtain ⟨start, above, part, holds, rfl⟩ := ofExpr_part inside
  exact ⟨_, holds.evaluate f⟩

/-- Once the first `n` nodes are done, the table knows what each of them comes to. -/
theorem tableUpTo_eq_some (e : Expr Value) (f : Fold β) {n id : Nat} (done : id < n)
    (inside : id < (Tree.ofExpr e).count) :
    ∃ x, ((Tree.ofExpr e).tableUpTo f n)[id]? = some (some x) ∧
      (Tree.ofExpr e).evaluate f id = some x := by
  obtain ⟨x, value⟩ := ofExpr_evaluate_eq_some e f inside
  exact ⟨x, value ▸ (filled_tableUpTo e f n).entry id done, value⟩

/-- **Both ways to run a fold agree.** When the table comes to an operator, it has what both operands
come to. At the end it has one entry for each node, the same that the recursion comes to, which
visits a node with what it comes to for the operands; so it has for the root. -/
theorem ofExpr_table (e : Expr Value) (f : Fold β) :
    let t := Tree.ofExpr e
    (∀ id l r : Nat, t.children? id = some (l, r) →
      ∃ x y, (t.tableUpTo f id)[l]? = some (some x) ∧ (t.tableUpTo f id)[r]? = some (some y)) ∧
      t.table f = t.tableUpTo f t.count ∧ (t.table f).size = t.count ∧
      (∀ id : Nat, id < t.count →
        ∃ x, (t.table f)[id]? = some (some x) ∧ t.evaluate f id = some x) ∧
      (∀ id : Nat, t.evaluate f id = (t.accept (f.visitor (t.evaluate f)) id).join) ∧
      ∃ x, (t.table f)[t.root]? = some (some x) ∧ t.evaluate f t.root = some x := by
  intro t
  have root : t.root < t.count := (ofExpr_root_iff.2 rfl).1
  refine ⟨fun id l r children => ?_, rfl, (filled_tableUpTo e f _).size, fun id inside => ?_,
    ofExpr_evaluate e f, tableUpTo_eq_some e f root root⟩
  · obtain ⟨left, right, -⟩ := ofExpr_children children
    obtain ⟨x, entry, -⟩ := tableUpTo_eq_some e f (ofExpr_upward e l id left).1
      (parent?_lt_count left)
    obtain ⟨y, entry', -⟩ := tableUpTo_eq_some e f (ofExpr_upward e r id right).1
      (parent?_lt_count right)
    exact ⟨x, y, entry, entry'⟩
  · exact tableUpTo_eq_some e f inside inside

theorem ofExpr_table_outline :
    let e : Expr Value := .binary .or (.binary .and (.field "a") .parameter)
      (.binary .equals (.field "b") (.literal (.bool true)))
    let t := Tree.ofExpr e
    t.children? 6 = some (2, 5) ∧
      (∃ x y, (t.tableUpTo Fold.outline 6)[2]? = some (some x) ∧
        (t.tableUpTo Fold.outline 6)[5]? = some (some y)) ∧
      5 < t.count ∧
      ∃ x, (t.table Fold.outline)[5]? = some (some x) ∧ t.evaluate Fold.outline 5 = some x := by
  intro e t
  obtain ⟨operands, -, -, entries, -, -⟩ := ofExpr_table e Fold.outline
  have children : t.children? 6 = some (2, 5) := (ofExpr_holds e).children?
  have inside : 5 < t.count := by rw [ofExpr_count]; decide
  exact ⟨children, operands 6 2 5 children, inside, entries 5 inside⟩

end RowFilter.Tree
