import RowFilter.Tree.Basic

/-! An expression is laid out in a table one step at a time, with a list of the tasks still to do.
Children come before their parent and the left subtree before the right; the parent links of two
children are written when their parent is stored. -/

namespace RowFilter

inductive Task
  /-- Lay out an expression. -/
  | visit (e : Expr Value)
  /-- Lay out the right operand, now that the left is done. -/
  | right (op : BinaryOp) (operand : Expr Value)
  /-- Store the binary node of two subtrees; the right one was the last to be done. -/
  | build (op : BinaryOp) (left : NodeId)

structure Assembly where
  slots : Array Slot
  /-- The root of the subtree that was completed last. -/
  last : NodeId
  pending : List Task

namespace Assembly

def start (e : Expr Value) : Assembly := ⟨#[], 0, [.visit e]⟩

def reparent (slots : Array Slot) (child parent : NodeId) : Array Slot :=
  slots.modify child fun s => { s with parent := some parent }

/-- Stores a leaf. -/
def leaf (slots : Array Slot) (node : Node) (pending : List Task) : Assembly :=
  let id := slots.size
  ⟨slots.push ⟨node, none⟩, id, pending⟩

/-- Stores a binary node above two others. -/
def join (slots : Array Slot) (op : BinaryOp) (left right : NodeId) (pending : List Task) :
    Assembly :=
  let id := slots.size
  ⟨(reparent (reparent slots left id) right id).push ⟨.binary op left right, none⟩, id, pending⟩

/-- Does one task. -/
def perform (slots : Array Slot) (last : NodeId) (pending : List Task) : Task → Assembly
  | .visit (.field name) => leaf slots (.field name) pending
  | .visit .parameter => leaf slots .parameter pending
  | .visit (.literal value) => leaf slots (.literal value) pending
  | .visit (.binary op l r) => ⟨slots, last, .visit l :: .right op r :: pending⟩
  | .right op r => ⟨slots, last, .visit r :: .build op last :: pending⟩
  | .build op left => join slots op left last pending

def step : Assembly → Assembly
  | ⟨slots, last, task :: pending⟩ => perform slots last pending task
  | ⟨slots, last, []⟩ => ⟨slots, last, []⟩

def run : Nat → Assembly → Assembly
  | 0, a => a
  | n + 1, a => run n a.step

end Assembly

/-- The number of tasks that lay out an expression: one for a leaf, three for an operator. -/
def Expr.steps {α : Type} : Expr α → Nat
  | .binary _ l r => l.steps + r.steps + 3
  | _ => 1

/-- The tree of an expression. -/
def Tree.ofExpr (e : Expr Value) : Tree :=
  let done := (Assembly.start e).run e.steps
  ⟨done.slots, done.last⟩

end RowFilter
