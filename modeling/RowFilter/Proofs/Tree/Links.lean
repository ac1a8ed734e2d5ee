import RowFilter.Proofs.Tree.Subtree

/-!
# The links of an assembled tree

Parent links are written after the fact, when the operator of two complete
subtrees is stored. At that moment the roots of both are still without a parent:
so is the root of every complete subtree that waits for its operator, and no root
waits twice.

* `Assembly.Tidy`: what every task of an assembly keeps;
* `Assembly.Tidy.step`, `Assembly.Tidy.run`: that it does;
* `Assembly.Tidy.linksOrphans`: a parent link is written only where there is none;
* `Tree.Strict`: child links and parent links say the same, and make a tree;
* `Tree.ofExpr_strict`: an assembled tree is strict, and so was its assembly.
-/

namespace RowFilter

namespace Assembly

/-- The node is there and has no parent. -/
def Orphan (slots : Array Slot) (id : NodeId) : Prop :=
  ∃ s, slots[id]? = some s ∧ s.parent = none

@[simp] theorem size_reparent (slots : Array Slot) (child parent : NodeId) :
    (reparent slots child parent).size = slots.size := Array.size_modify

theorem Orphan.inside {slots : Array Slot} {id : NodeId} (h : Orphan slots id) :
    id < slots.size := by
  obtain ⟨s, found, -⟩ := h
  exact (Array.getElem?_eq_some_iff.1 found).1

theorem Orphan.reparent {slots : Array Slot} {id child : NodeId} (h : Orphan slots id)
    (other : child ≠ id) (parent : NodeId) : Orphan (reparent slots child parent) id := by
  obtain ⟨s, found, none⟩ := h
  refine ⟨s, ?_, none⟩
  rw [Assembly.reparent, Array.getElem?_modify, if_neg other, found]

theorem Orphan.push {slots : Array Slot} {id : NodeId} (h : Orphan slots id) (s : Slot) :
    Orphan (slots.push s) id := by
  have inside := h.inside
  obtain ⟨own, found, none⟩ := h
  refine ⟨own, ?_, none⟩
  rw [Array.getElem?_push_lt inside, ← found, Array.getElem?_eq_getElem inside]

theorem orphan_push (slots : Array Slot) (node : Node) :
    Orphan (slots.push ⟨node, none⟩) slots.size :=
  ⟨⟨node, none⟩, Array.getElem?_push_size, rfl⟩

/-! ## Roots that wait for a parent -/

/-- The left operands that wait in the list of tasks for their operators. -/
def held : List Task → List NodeId
  | [] => []
  | .build _ left :: pending => left :: held pending
  | _ :: pending => held pending

/-- The roots of the complete subtrees that have no parent yet. The last one to be completed is among
them unless another subtree is to be begun. -/
def roots : Assembly → List NodeId
  | ⟨_, _, .visit _ :: pending⟩ => held pending
  | ⟨_, last, pending⟩ => last :: held pending

/-- The roots that wait for a parent are there, have none, and wait once each. -/
structure Tidy (a : Assembly) : Prop where
  orphans : ∀ id ∈ a.roots, Orphan a.slots id
  once : a.roots.Nodup

/-- Every parent link that the next task writes goes to a node that is there and has none, also the
second of two. -/
def LinksOrphans (a : Assembly) : Prop :=
  ∀ (op : BinaryOp) (left : NodeId) (pending : List Task), a.pending = .build op left :: pending →
    Orphan a.slots left ∧ Orphan (reparent a.slots left a.slots.size) a.last

theorem roots_sublist (slots : Array Slot) (last : NodeId) (pending : List Task) :
    (roots ⟨slots, last, pending⟩).Sublist (last :: held pending) := by
  cases pending with
  | nil => exact List.Sublist.refl _
  | cons task pending =>
    cases task with
    | visit e => exact List.sublist_cons_self last (held pending)
    | right op operand => exact List.Sublist.refl _
    | build op left => exact List.Sublist.refl _

theorem tidy_push {slots : Array Slot} {pending : List Task} (node : Node)
    (orphans : ∀ id ∈ held pending, Orphan slots id) (once : (held pending).Nodup) :
    Tidy ⟨slots.push ⟨node, none⟩, slots.size, pending⟩ := by
  have fresh : slots.size ∉ held pending := by
    intro mem
    exact absurd (orphans _ mem).inside (Nat.lt_irrefl _)
  have sublist := roots_sublist (slots.push ⟨node, none⟩) slots.size pending
  constructor
  · intro id mem
    rcases List.mem_cons.1 (sublist.subset mem) with rfl | old
    · exact orphan_push slots node
    · exact (orphans id old).push _
  · exact (List.nodup_cons.2 ⟨fresh, once⟩).sublist sublist

theorem tidy_start (e : Expr Value) : (start e).Tidy :=
  ⟨fun _ mem => absurd mem List.not_mem_nil, List.nodup_nil⟩

section
variable {slots : Array Slot} {last left : NodeId} {op : BinaryOp} {pending : List Task}

/-- Both operands of an operator that is to be stored are without a parent, and they are two. -/
theorem Tidy.operands (h : Tidy ⟨slots, last, .build op left :: pending⟩) :
    Orphan slots left ∧ Orphan slots last ∧ left ≠ last := by
  have once : (last :: left :: held pending).Nodup := h.once
  have apart : last ≠ left := fun same => (List.nodup_cons.1 once).1 (same ▸ List.mem_cons_self)
  refine ⟨h.orphans left ?_, h.orphans last ?_, apart.symm⟩
  · exact List.mem_cons_of_mem _ List.mem_cons_self
  · exact List.mem_cons_self

/-- The links of an operator leave the roots that go on waiting without a parent. -/
theorem Tidy.join (h : Tidy ⟨slots, last, .build op left :: pending⟩) :
    (join slots op left last pending).Tidy := by
  have once : (last :: left :: held pending).Nodup := h.once
  obtain ⟨notLast, others⟩ := List.nodup_cons.1 once
  obtain ⟨notLeft, rest⟩ := List.nodup_cons.1 others
  have orphans : ∀ id ∈ held pending,
      Orphan (reparent (reparent slots left slots.size) last slots.size) id := by
    intro id mem
    have old : Orphan slots id :=
      h.orphans id (List.mem_cons_of_mem _ (List.mem_cons_of_mem _ mem))
    have unlike : left ≠ id := fun same => notLeft (same ▸ mem)
    have unlike' : last ≠ id := fun same => notLast (same ▸ List.mem_cons_of_mem _ mem)
    exact (old.reparent unlike _).reparent unlike' _
  have stored := tidy_push (.binary op left last) orphans rest
  rwa [size_reparent, size_reparent] at stored

end

theorem Tidy.linksOrphans {a : Assembly} (h : a.Tidy) : a.LinksOrphans := by
  obtain ⟨slots, last, tasks⟩ := a
  rintro op left pending rfl
  obtain ⟨first, second, apart⟩ := h.operands
  exact ⟨first, second.reparent apart _⟩

/-- **No task disturbs the roots that wait for a parent.** -/
theorem Tidy.step {a : Assembly} (h : a.Tidy) : a.step.Tidy := by
  obtain ⟨slots, last, tasks⟩ := a
  cases tasks with
  | nil => exact h
  | cons task pending =>
    cases task with
    | visit e =>
      cases e with
      | field name => exact tidy_push _ h.orphans h.once
      | parameter => exact tidy_push _ h.orphans h.once
      | literal v => exact tidy_push _ h.orphans h.once
      -- what is to be laid out changes, but not what waits
      | binary op l r => exact ⟨h.orphans, h.once⟩
    | right op operand => exact ⟨h.orphans, h.once⟩
    | build op left => exact h.join

theorem Tidy.run {a : Assembly} (h : a.Tidy) (n : Nat) : (run n a).Tidy := by
  induction n generalizing a with
  | zero => exact h
  | succ n ih => exact ih h.step

theorem pending_run_steps (e : Expr Value) : ((start e).run e.steps).pending = [] := by
  have run := run_visit e [] 0 [] 0
  rw [Nat.add_zero] at run
  exact congrArg Assembly.pending run

end Assembly

/-! ## Strict trees -/

namespace Tree

/-- A child link leads from `parent` to the node. -/
def IsChild (t : Tree) (parent id : Nat) : Prop :=
  ∃ l r, t.children? parent = some (l, r) ∧ (id = l ∨ id = r)

/-- Child links and parent links are one relation, and the nodes hang on it as a tree. -/
structure Strict (t : Tree) : Prop where
  children_inside : ∀ parent l r : Nat, t.children? parent = some (l, r) → l < t.count ∧ r < t.count
  parent_inside : ∀ id parent : Nat, t.parent? id = some parent → parent < t.count
  parent_iff : ∀ id parent : Nat, t.parent? id = some parent ↔ t.IsChild parent id
  /-- No node is both operands of one operator. -/
  apart : ∀ parent l r : Nat, t.children? parent = some (l, r) → l ≠ r
  /-- No node is an operand of two operators. -/
  once : ∀ id parent parent' : Nat, t.IsChild parent id → t.IsChild parent' id → parent = parent'
  later : ∀ id parent : Nat, t.parent? id = some parent → id < parent
  /-- The root and no other node is without a parent. -/
  root : ∀ id : Nat, id < t.count ∧ t.parent? id = none ↔ id = t.root

variable {e : Expr Value}

theorem ofExpr_children {parent l r : Nat}
    (h : (Tree.ofExpr e).children? parent = some (l, r)) :
    (Tree.ofExpr e).parent? l = some parent ∧ (Tree.ofExpr e).parent? r = some parent ∧ l < r := by
  obtain ⟨op, node⟩ := children?_eq_some_iff.1 h
  obtain ⟨start, above, x, y, holds, rfl, rfl, rfl⟩ := ofExpr_operator node
  have last := x.place_succ start
  have last' := y.place_succ (start + x.size)
  have := y.size_pos
  exact ⟨holds.left.parent?, holds.right.parent?, by omega⟩

theorem ofExpr_parent?_iff {id parent : Nat} :
    (Tree.ofExpr e).parent? id = some parent ↔ (Tree.ofExpr e).IsChild parent id := by
  constructor
  · intro link
    exact (ofExpr_parent link).2.2
  · rintro ⟨l, r, children, rfl | rfl⟩
    · exact (ofExpr_children children).1
    · exact (ofExpr_children children).2.1

theorem ofExpr_root_iff {id : Nat} :
    id < (Tree.ofExpr e).count ∧ (Tree.ofExpr e).parent? id = none ↔ id = (Tree.ofExpr e).root := by
  have holds := ofExpr_holds e
  have last := e.place_succ 0
  rw [ofExpr_count, ofExpr_root]
  constructor
  · rintro ⟨inside, none⟩
    by_cases root : id = e.place 0
    · exact root
    · obtain ⟨parent, found, -⟩ := holds.parent_between (Nat.zero_le id) (by omega)
      rw [none] at found
      cases found
  · rintro rfl
    exact ⟨by omega, holds.parent?⟩

/-- **An assembled tree is strict.** On the way to it every parent link was written to a node that
was there and had none, and no task was left undone. -/
theorem ofExpr_strict (e : Expr Value) :
    (Tree.ofExpr e).Strict ∧ (∀ n, ((Assembly.start e).run n).LinksOrphans) ∧
      ((Assembly.start e).run e.steps).pending = [] := by
  refine ⟨⟨?_, ?_, ?_, ?_, ?_, ?_, ?_⟩, ?_, Assembly.pending_run_steps e⟩
  · intro parent l r children
    obtain ⟨left, right, -⟩ := ofExpr_children children
    exact ⟨parent?_lt_count left, parent?_lt_count right⟩
  · intro id parent link
    exact (ofExpr_upward e id parent link).2
  · intro id parent
    exact ofExpr_parent?_iff
  · intro parent l r children
    exact Nat.ne_of_lt (ofExpr_children children).2.2
  · intro id parent parent' child child'
    have link := ofExpr_parent?_iff.2 child
    rw [ofExpr_parent?_iff.2 child', Option.some.injEq] at link
    exact link.symm
  · intro id parent link
    exact (ofExpr_upward e id parent link).1
  · intro id
    exact ofExpr_root_iff
  · intro n
    exact ((Assembly.tidy_start e).run n).linksOrphans

end Tree

end RowFilter
