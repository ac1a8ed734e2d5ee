import RowFilter.Compile.Context
import RowFilter.Compile.Direct
import RowFilter.Proofs.Tree.PostOrder
import RowFilter.Proofs.Tree.Subtree

namespace RowFilter

/-- A field of the document is reached from the node by going down through equalities only. -/
inductive Tree.Reaches (t : Tree) (s : Schema) : Nat → Prop
  | field {id : Nat} {name : String} (node : t.node? id = some (.field name))
      (document : s.isDocumentField name = true) : Reaches t s id
  | left {id l r : Nat} (node : t.node? id = some (.binary .equals l r))
      (reached : Reaches t s l) : Reaches t s id
  | right {id l r : Nat} (node : t.node? id = some (.binary .equals l r))
      (reached : Reaches t s r) : Reaches t s id

namespace Tree

variable {t : Tree} {s : Schema}

theorem reaches_field {id : Nat} {name : String} (node : t.node? id = some (.field name)) :
    t.Reaches s id ↔ s.isDocumentField name = true := by
  constructor
  · rintro (⟨node', document⟩ | ⟨node', _⟩ | ⟨node', _⟩)
    · cases node.symm.trans node'
      exact document
    · cases node.symm.trans node'
    · cases node.symm.trans node'
  · exact .field node

theorem reaches_equals {id l r : Nat} (node : t.node? id = some (.binary .equals l r)) :
    t.Reaches s id ↔ t.Reaches s l ∨ t.Reaches s r := by
  constructor
  · rintro (⟨node', _⟩ | ⟨node', reached⟩ | ⟨node', reached⟩)
    · cases node.symm.trans node'
    · cases node.symm.trans node'
      exact .inl reached
    · cases node.symm.trans node'
      exact .inr reached
  · rintro (reached | reached)
    · exact .left node reached
    · exact .right node reached

theorem Reaches.form {id : Nat} (h : t.Reaches s id) :
    (∃ name, t.node? id = some (.field name)) ∨
      ∃ l r, t.node? id = some (.binary .equals l r) := by
  rcases h with ⟨node, _⟩ | ⟨node, _⟩ | ⟨node, _⟩
  · exact .inl ⟨_, node⟩
  · exact .inr ⟨_, _, node⟩
  · exact .inr ⟨_, _, node⟩

theorem reaches_iff_isMarked {start : Nat} {above : Option NodeId} {e : Expr Value}
    (h : t.Holds start above e) : t.Reaches s (e.place start) ↔ e.isMarked s = true := by
  induction e generalizing start above with
  | field name => exact reaches_field h.node?
  | binary op l r hl hr =>
    have node := h.node?
    cases op with
    | equals => rw [reaches_equals node, hl h.left, hr h.right, Expr.isMarked, Bool.or_eq_true]
    | _ =>
      refine ⟨fun reached => ?_, nofun⟩
      rcases reached.form with ⟨_, node'⟩ | ⟨_, _, node'⟩ <;> cases node.symm.trans node'
  | _ =>
    refine ⟨fun reached => ?_, nofun⟩
    rcases reached.form with ⟨_, node'⟩ | ⟨_, _, node'⟩ <;> cases h.node?.symm.trans node'

end Tree

namespace Context

variable {t : Tree} {s : Schema}

/-- Whether a pass marks a node, given what it has marked before. -/
def marks (t : Tree) (s : Schema) (a : Annotations) (id : NodeId) : Bool :=
  match t.node? id with
  | some (.field name) => s.isDocumentField name
  | some (.binary .equals l r) => a.isMarked l key || a.isMarked r key
  | _ => false

theorem markNode_eq (a : Annotations) (id : NodeId) :
    markNode t s id a = if marks t s a id then a.set id key (.bool true) else a := by
  unfold markNode marks
  rcases t.node? id with _ | ⟨_ | _ | _ | ⟨⟨⟩, l, r⟩⟩ <;> rfl

/-- A pass over the places from `start` up to `stop` has marked the nodes there from which a field
of the document is reached, and has entered nothing else. -/
def Marked (t : Tree) (s : Schema) (start stop : Nat) (a : Annotations) : Prop :=
  ∀ (n : Nat) (k : String) (v : Json), a.get? n k = some v ↔
    k = key ∧ v = .bool true ∧ start ≤ n ∧ n < stop ∧ t.Reaches s n

theorem Marked.isMarked {start stop : Nat} {a : Annotations} (h : Marked t s start stop a)
    (n : Nat) : a.isMarked n key = true ↔ start ≤ n ∧ n < stop ∧ t.Reaches s n := by
  simp [Annotations.isMarked_iff, h n]

/-- The next node is marked exactly if a field of the document is reached from it, since its
operands have been decided. -/
theorem Marked.marks_iff {start stop : Nat} {a : Annotations} (h : Marked t s start stop a)
    (operands : ∀ (op : BinaryOp) (l r : Nat), t.node? stop = some (.binary op l r) →
      start ≤ l ∧ l < stop ∧ start ≤ r ∧ r < stop) :
    marks t s a stop = true ↔ t.Reaches s stop := by
  unfold marks
  split
  · next node => exact (Tree.reaches_field node).symm
  · next l r node =>
    obtain ⟨l₁, l₂, r₁, r₂⟩ := operands _ l r node
    rw [Tree.reaches_equals node, Bool.or_eq_true, h.isMarked, h.isMarked]
    simp only [l₁, l₂, r₁, r₂, true_and]
  · next other₁ other₂ =>
    refine ⟨nofun, fun reached => ?_⟩
    rcases reached.form with ⟨name, node⟩ | ⟨l, r, node⟩
    · exact absurd node (other₁ name)
    · exact absurd node (other₂ l r)

theorem Marked.step {start stop : Nat} {a : Annotations} (h : Marked t s start stop a)
    (le : start ≤ stop)
    (operands : ∀ (op : BinaryOp) (l r : Nat), t.node? stop = some (.binary op l r) →
      start ≤ l ∧ l < stop ∧ start ≤ r ∧ r < stop) :
    Marked t s start (stop + 1) (markNode t s stop a) := by
  have next := h.marks_iff operands
  intro n k v
  rw [markNode_eq]
  by_cases reached : t.Reaches s stop
  · rw [if_pos (next.2 reached), Annotations.get?_set]
    by_cases new : n = stop ∧ k = key
    · obtain ⟨rfl, rfl⟩ := new
      simp [reached, le, eq_comm]
    · rw [if_neg new, h n]
      have old : k = key → (n < stop ↔ n < stop + 1) := fun same => by
        have : n ≠ stop := fun at_stop => new ⟨at_stop, same⟩
        omega
      grind
  · rw [if_neg (mt next.1 reached), h n]
    have old : t.Reaches s n → (n < stop ↔ n < stop + 1) := fun below => by
      have : n ≠ stop := fun at_stop => reached (at_stop ▸ below)
      omega
    grind

/-- **A pass marks a node of the subtree exactly if a field of the document is reached from it.** No
other node is annotated, and no other key is used. -/
theorem mark_marked {start : Nat} {above : Option NodeId} {e : Expr Value}
    (h : t.Holds start above e) :
    Marked t s start (start + e.size) (mark t s (e.place start)) := by
  have part (m : Nat) (le : m ≤ e.size) :
      Marked t s start (start + m)
        ((List.range' start m).foldl (fun a id => markNode t s id a) .empty) := by
    induction m with
    | zero =>
      intro n k v
      simp only [List.range'_zero, List.foldl_nil, Annotations.get?_empty]
      constructor
      · nofun
      · rintro ⟨_, _, first, last, _⟩
        omega
    | succ m ih =>
      rw [List.range'_1_concat, List.foldl_append]
      refine (ih (by omega)).step (by omega) fun op l r node => ?_
      have := e.place_succ start
      exact h.operands_between (by omega) (by omega) node
  rw [mark, Tree.walkPostOrder_holds h, visitAll_always]
  exact part e.size (Nat.le_refl _)

theorem isMarked_ofExpr (s : Schema) (e : Expr Value) (n : Nat) :
    (mark (Tree.ofExpr e) s (Tree.ofExpr e).root).isMarked n key = true ↔
      (Tree.ofExpr e).Reaches s n := by
  rw [Tree.ofExpr_root, (mark_marked (Tree.ofExpr_holds e)).isMarked]
  refine ⟨fun h => h.2.2, fun reached => ⟨Nat.zero_le n, ?_, reached⟩⟩
  have inside : n < (Tree.ofExpr e).count := by
    rcases reached.form with ⟨_, node⟩ | ⟨_, _, node⟩ <;> exact Tree.node?_lt_count node
  simpa using inside

end Context

end RowFilter
