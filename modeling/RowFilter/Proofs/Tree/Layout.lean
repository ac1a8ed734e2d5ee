import RowFilter.Tree.Assembly

/-! An assembled tree holds the nodes of its expression in post-order and without gaps, so that the
place of a node follows from the sizes of what stands left of it. -/

namespace RowFilter

namespace Expr

/-- The place of an expression whose first node is at `start`. -/
def place {α : Type} (e : Expr α) (start : Nat) : Nat := start + e.size - 1

/-- The node of an expression whose first node is at `start`. -/
def top (start : Nat) : Expr Value → Node
  | .field name => .field name
  | .parameter => .parameter
  | .literal value => .literal value
  | .binary op l r => .binary op (l.place start) (r.place (start + l.size))

/-- The slots of the proper parts of an expression. -/
def inner (start : Nat) : Expr Value → List Slot
  | .binary op l r =>
    let parent := some ((Expr.binary op l r).place start)
    (l.inner start ++ [⟨l.top start, parent⟩]) ++
      (r.inner (start + l.size) ++ [⟨r.top (start + l.size), parent⟩])
  | _ => []

/-- The slots of an expression, the first of them at `start`. -/
def layout (start : Nat) (parent : Option NodeId) (e : Expr Value) : List Slot :=
  e.inner start ++ [⟨e.top start, parent⟩]

theorem place_binary {α : Type} (op : BinaryOp) (l r : Expr α) (start : Nat) :
    (Expr.binary op l r).place start = start + l.size + r.size := by
  simp only [place, size]
  omega

theorem place_succ {α : Type} (e : Expr α) (start : Nat) :
    e.place start + 1 = start + e.size := by
  have := e.size_pos
  simp only [place]
  omega

theorem layout_binary (op : BinaryOp) (l r : Expr Value) (start : Nat) (parent : Option NodeId) :
    (Expr.binary op l r).layout start parent =
      l.layout start (some ((Expr.binary op l r).place start)) ++
        (r.layout (start + l.size) (some ((Expr.binary op l r).place start)) ++
          [⟨(Expr.binary op l r).top start, parent⟩]) := by
  simp only [layout, inner, List.append_assoc]

@[simp] theorem length_layout (e : Expr Value) (start : Nat) (parent : Option NodeId) :
    (e.layout start parent).length = e.size := by
  induction e generalizing start parent with
  | binary op l r hl hr =>
    simp only [layout_binary, List.length_append, hl, hr, size, List.length_singleton]
    omega
  | _ => rfl

theorem length_inner (e : Expr Value) (start : Nat) : (e.inner start).length = e.size - 1 := by
  have := e.length_layout start none
  simp only [layout, List.length_append, List.length_singleton] at this
  omega

end Expr

/-! ## Assembling -/

namespace Assembly

theorem reparent_append (before after : List Slot) (s : Slot) (parent : NodeId) :
    reparent (before ++ s :: after).toArray before.length parent =
      (before ++ { s with parent := some parent } :: after).toArray := by
  rw [reparent, List.modify_toArray]
  congr 1
  rw [List.modify_eq_take_cons_drop (by simp)]
  simp

theorem reparent_layout (before after : List Slot) (e : Expr Value) (parent : NodeId) :
    reparent (before ++ (e.layout before.length none ++ after)).toArray
        (e.place before.length) parent =
      (before ++ (e.layout before.length (some parent) ++ after)).toArray := by
  have place : e.place before.length = (before ++ e.inner before.length).length := by
    have := e.size_pos
    rw [List.length_append, Expr.length_inner, Expr.place]
    omega
  simpa only [Expr.layout, List.append_assoc, List.singleton_append, ← place] using
    reparent_append (before ++ e.inner before.length) after ⟨e.top before.length, none⟩ parent

/-- Storing a binary node behind its operands completes the layout of all three. -/
theorem join_layout (before : List Slot) (op : BinaryOp) (l r : Expr Value) (pending : List Task) :
    join (before ++ (l.layout before.length none ++
          r.layout (before.length + l.size) none)).toArray op
        (l.place before.length) (r.place (before.length + l.size)) pending =
      ⟨(before ++ (Expr.binary op l r).layout before.length none).toArray,
        (Expr.binary op l r).place before.length, pending⟩ := by
  have id : (before ++ (l.layout before.length none ++
      r.layout (before.length + l.size) none)).toArray.size =
        (Expr.binary op l r).place before.length := by
    simp only [List.size_toArray, List.length_append, Expr.length_layout, Expr.place_binary]
    omega
  have left := reparent_layout before (r.layout (before.length + l.size) none) l
    ((Expr.binary op l r).place before.length)
  have right := reparent_layout (before ++ l.layout before.length
    (some ((Expr.binary op l r).place before.length))) [] r
      ((Expr.binary op l r).place before.length)
  simp only [List.length_append, Expr.length_layout, List.append_nil, List.append_assoc] at right
  simp only [join, id, left, right, Expr.layout_binary, List.push_toArray, List.append_assoc,
    Expr.top]

theorem run_step (n : Nat) (a : Assembly) : run (n + 1) a = run n a.step := rfl

/-- Laying out an expression takes its number of steps and leaves the other tasks alone. -/
theorem run_visit (e : Expr Value) (before : List Slot) (last : NodeId) (pending : List Task)
    (n : Nat) :
    run (e.steps + n) ⟨before.toArray, last, .visit e :: pending⟩ =
      run n ⟨(before ++ e.layout before.length none).toArray, e.place before.length, pending⟩ := by
  induction e generalizing before last pending n with
  | binary op l r hl hr =>
    have count : (Expr.binary op l r).steps + n = (l.steps + ((r.steps + (n + 1)) + 1)) + 1 := by
      simp only [Expr.steps]
      omega
    have length : (before ++ l.layout before.length none).length = before.length + l.size := by
      simp
    rw [count, run_step]
    simp only [step, perform]
    rw [hl, run_step]
    simp only [step, perform]
    rw [hr, run_step, length]
    simp only [step, perform, List.append_assoc]
    rw [join_layout]
  | _ =>
    rw [Expr.steps, Nat.add_comm, run_step] <;>
      simp [step, perform, leaf, Expr.layout, Expr.inner, Expr.top, Expr.place, Expr.size]

end Assembly

/-- **Assembling stores the layout.** The tree of an expression has the slots of its layout from
the first place on, and the node of the whole expression is its root. -/
theorem Tree.ofExpr_eq (e : Expr Value) :
    Tree.ofExpr e = ⟨(e.layout 0 none).toArray, e.place 0⟩ := by
  have run := Assembly.run_visit e [] 0 [] 0
  simp only [List.nil_append, List.length_nil] at run
  have start : Assembly.start e = ⟨([] : List Slot).toArray, 0, [.visit e]⟩ := rfl
  simp only [Tree.ofExpr, start]
  rw [← Nat.add_zero e.steps, run]
  rfl

@[simp] theorem Tree.ofExpr_count (e : Expr Value) : (Tree.ofExpr e).count = e.size := by
  simp [Tree.ofExpr_eq, Tree.count]

@[simp] theorem Tree.ofExpr_root (e : Expr Value) : (Tree.ofExpr e).root = e.place 0 := by
  rw [Tree.ofExpr_eq]

/-! ## Trees that hold an expression -/

namespace Tree

/-- The tree has the nodes of the expression from `start` on, linked to each other as the operands
are to their operators, and the node of the whole expression is linked to `parent`. -/
def Holds (t : Tree) (start : Nat) (parent : Option NodeId) : Expr Value → Prop
  | .binary op l r =>
    t.slots[(Expr.binary op l r).place start]? =
      some ⟨(Expr.binary op l r).top start, parent⟩ ∧
    t.Holds start (some ((Expr.binary op l r).place start)) l ∧
    t.Holds (start + l.size) (some ((Expr.binary op l r).place start)) r
  | e => t.slots[e.place start]? = some ⟨e.top start, parent⟩

theorem Holds.left {t : Tree} {start : Nat} {parent : Option NodeId} {op : BinaryOp}
    {l r : Expr Value} (h : t.Holds start parent (.binary op l r)) :
    t.Holds start (some ((Expr.binary op l r).place start)) l := h.2.1

theorem Holds.right {t : Tree} {start : Nat} {parent : Option NodeId} {op : BinaryOp}
    {l r : Expr Value} (h : t.Holds start parent (.binary op l r)) :
    t.Holds (start + l.size) (some ((Expr.binary op l r).place start)) r := h.2.2

theorem Holds.slot {t : Tree} {start : Nat} {parent : Option NodeId} {e : Expr Value}
    (h : t.Holds start parent e) : t.slots[e.place start]? = some ⟨e.top start, parent⟩ := by
  cases e with
  | binary op l r => exact h.1
  | _ => exact h

theorem Holds.node? {t : Tree} {start : Nat} {parent : Option NodeId} {e : Expr Value}
    (h : t.Holds start parent e) : t.node? (e.place start) = some (e.top start) := by
  simp [Tree.node?, h.slot]

theorem Holds.parent? {t : Tree} {start : Nat} {parent : Option NodeId} {e : Expr Value}
    (h : t.Holds start parent e) : t.parent? (e.place start) = parent := by
  simp [Tree.parent?, h.slot]

theorem Holds.children? {t : Tree} {start : Nat} {above : Option NodeId} {op : BinaryOp}
    {l r : Expr Value} (h : t.Holds start above (.binary op l r)) :
    t.children? ((Expr.binary op l r).place start) =
      some (l.place start, r.place (start + l.size)) := by
  simp [Tree.children?, h.node?, Expr.top]

theorem Holds.count_le {t : Tree} {start : Nat} {parent : Option NodeId} {e : Expr Value}
    (h : t.Holds start parent e) : start + e.size ≤ t.count := by
  obtain ⟨inside, _⟩ := Array.getElem?_eq_some_iff.1 h.slot
  have := e.place_succ start
  simp only [Tree.count]
  omega

theorem node?_lt_count {t : Tree} {id : Nat} {node : Node} (h : t.node? id = some node) :
    id < t.count := by
  by_cases inside : id < t.slots.size
  · exact inside
  · simp [Tree.node?, Array.getElem?_eq_none (Nat.le_of_not_lt inside)] at h

theorem slot_of_layout {t : Tree} {before after : List Slot} {parent : Option NodeId}
    {e : Expr Value}
    (h : t.slots.toList = before ++ (e.layout before.length parent ++ after)) :
    t.slots[e.place before.length]? = some ⟨e.top before.length, parent⟩ := by
  have place : e.place before.length = (before ++ e.inner before.length).length := by
    have := e.place_succ before.length
    have := e.size_pos
    rw [List.length_append, Expr.length_inner]
    omega
  rw [← Array.getElem?_toList, h, place]
  simp [Expr.layout]

theorem holds_of_layout {t : Tree} (before after : List Slot) {start : Nat}
    {parent : Option NodeId} {e : Expr Value} (length : before.length = start)
    (h : t.slots.toList = before ++ (e.layout start parent ++ after)) :
    t.Holds start parent e := by
  induction e generalizing before after start parent with
  | binary op l r hl hr =>
    subst length
    have own := slot_of_layout h
    simp only [Expr.layout_binary, List.append_assoc] at h
    have right := h
    rw [← List.append_assoc before] at right
    exact ⟨own, hl before _ rfl h, hr _ _ (by simp) right⟩
  | _ => exact length ▸ slot_of_layout (length ▸ h)

/-- The tree of an expression holds it, from the first place on and below no parent. -/
theorem ofExpr_holds (e : Expr Value) : (Tree.ofExpr e).Holds 0 none e :=
  holds_of_layout [] [] rfl (by simp [Tree.ofExpr_eq])

end Tree

end RowFilter
