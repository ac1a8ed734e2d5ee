import RowFilter.Proofs.Context.Scope

namespace RowFilter

namespace Tree

variable {t : Tree} {s : Schema}

theorem operator?_eq_some_iff {id : Nat} {op : BinaryOp} :
    t.operator? id = some op ↔ ∃ l r, t.node? id = some (.binary op l r) := by
  unfold operator?
  split
  · next op' l r node => simp [node]
  · next other => simpa using fun l r => other op l r

theorem reaches_iff {id : Nat} :
    t.Reaches s id ↔
      (∃ name, t.node? id = some (.field name) ∧ name ∉ s.columns) ∨
        (t.operator? id = some .equals ∧ t.Reaches s id) := by
  constructor
  · intro reached
    rcases reached.form with ⟨name, node⟩ | ⟨l, r, node⟩
    · have document := (reaches_field node).1 reached
      exact .inl ⟨name, node, Schema.isDocumentField_iff.1 document⟩
    · exact .inr ⟨operator?_eq_some_iff.2 ⟨l, r, node⟩, reached⟩
  · rintro (⟨name, node, document⟩ | ⟨-, reached⟩)
    · exact .field node (Schema.isDocumentField_iff.2 document)
    · exact reached

theorem Reaches.equals {id l r : Nat} (h : t.Reaches s id) (children : t.children? id = some (l, r)) :
    t.operator? id = some .equals := by
  obtain ⟨op, node⟩ := children?_eq_some_iff.1 children
  rcases h.form with ⟨name, node'⟩ | ⟨l', r', node'⟩
  · cases node.symm.trans node'
  · exact operator?_eq_some_iff.2 ⟨l', r', node'⟩

end Tree

namespace Context

variable {t : Tree} {s : Schema}

theorem mark_outside {start : Nat} (outside : t.count ≤ start) : mark t s start = .empty := by
  have nothing : t.slots[start]? = none := Array.getElem?_eq_none outside
  have leaf : t.children? start = none := by simp [Tree.children?, Tree.node?, nothing]
  have unmarked : markNode t s start .empty = .empty := by simp [markNode, Tree.node?, nothing]
  rw [mark, Tree.walkPostOrder]
  cases 2 * t.count with
  | zero => rfl
  | succ n =>
    rw [Tree.walkStack_show (.inl leaf), unmarked]
    cases n <;> rfl

/-- A pass from any node marks those in its subtree from which a field of the document is
reached. -/
theorem get?_mark_iff (s : Schema) (e : Expr Value) (start n : Nat) (k : String) (v : Json) :
    (mark (Tree.ofExpr e) s start).get? n k = some v ↔
      k = key ∧ v = .bool true ∧ (Tree.ofExpr e).Under start n ∧ (Tree.ofExpr e).Reaches s n := by
  by_cases inside : start < (Tree.ofExpr e).count
  · obtain ⟨first, above, part, holds, rfl⟩ := Tree.ofExpr_part inside
    have upto := part.place_succ first
    rw [mark_marked holds n k v, holds.under_iff, and_assoc, ← upto, Nat.lt_succ_iff]
  · rw [mark_outside (Nat.le_of_not_lt inside), Annotations.get?_empty]
    constructor
    · nofun
    · rintro ⟨-, -, under, -⟩
      exact absurd under.inside inside

/-- With the marks of a whole tree a node is in document context exactly if a node above it reaches
a field of the document. -/
theorem scope_eq_true_iff (s : Schema) (e : Expr Value) (id : NodeId) :
    (scope (Tree.ofExpr e) (mark (Tree.ofExpr e) s (Tree.ofExpr e).root))[id]? = some true ↔
      ∃ top, (Tree.ofExpr e).Above top id ∧ (Tree.ofExpr e).Reaches s top := by
  have up := Tree.ofExpr_upward e
  by_cases inside : id < (Tree.ofExpr e).count
  · rw [scope_getElem? up _ inside, Option.some.injEq, underMark, List.any_eq_true]
    simp only [Tree.mem_ancestors_iff up, isMarked_ofExpr]
  · have size := (scope_scanned up (mark (Tree.ofExpr e) s (Tree.ofExpr e).root)).size
    rw [Array.getElem?_eq_none (size ▸ Nat.le_of_not_lt inside)]
    constructor
    · intro entry
      cases entry
    · rintro ⟨top, above, -⟩
      exact absurd above.inside inside

/-- **Marks and document context are a matter of paths.** A pass from any node marks, in its subtree
and under one key, the fields of the document and the equalities from which one is reached through
equalities only. With the marks of a whole tree a node is in document context exactly if such an
equality is above it, whatever operators are in between. -/
theorem mark_and_scope_iff (s : Schema) (e : Expr Value) :
    let t := Tree.ofExpr e
    (∀ (start n : NodeId) (k : String) (v : Json), (mark t s start).get? n k = some v ↔
      k = key ∧ v = .bool true ∧ t.Under start n ∧
        ((∃ name, t.node? n = some (.field name) ∧ name ∉ s.columns) ∨
          (t.operator? n = some .equals ∧ t.Reaches s n))) ∧
    (scope t (mark t s t.root)).size = t.count ∧
    ∀ id : NodeId, (scope t (mark t s t.root))[id]? = some true ↔
      ∃ top, t.Above top id ∧ t.operator? top = some .equals ∧ t.Reaches s top := by
  intro t
  refine ⟨fun start n k v => ?_, (scope_scanned (Tree.ofExpr_upward e) _).size, fun id => ?_⟩
  · rw [get?_mark_iff, ← Tree.reaches_iff]
  · rw [scope_eq_true_iff]
    constructor
    · rintro ⟨top, above, reached⟩
      obtain ⟨l, r, children⟩ := above.children?
      exact ⟨top, above, reached.equals children, reached⟩
    · rintro ⟨top, above, -, reached⟩
      exact ⟨top, above, reached⟩

end Context

end RowFilter
