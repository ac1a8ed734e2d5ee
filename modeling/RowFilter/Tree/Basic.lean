import RowFilter.Expr.Basic
import RowFilter.Value.Basic

/-!
# Expression trees

A tree keeps the nodes of an expression in a table. A node names its children
and its parent by their places in that table, so that one can walk down as well
as up.

* `accept`: calls the callback for the form of a node;
* `ancestors`: the parents of a node up to the root.
-/

namespace RowFilter

abbrev NodeId : Type := Nat

inductive Node
  | field (name : String)
  | parameter
  | literal (value : Value)
  | binary (op : BinaryOp) (left right : NodeId)
  deriving Repr

/-- Equality of forms, constants compared as values and children by their places. -/
def Node.equal : Node → Node → Bool
  | .field a, .field b => a == b
  | .parameter, .parameter => true
  | .literal a, .literal b => a.equal b
  | .binary o l r, .binary o' l' r' => o == o' && l == l' && r == r'
  | _, _ => false

structure Slot where
  node : Node
  parent : Option NodeId
  deriving Repr

structure Tree where
  slots : Array Slot
  root : NodeId
  deriving Repr

/-- What to do with a node of each form. A binary node is given with its children. -/
structure Visitor (β : Type) where
  field : NodeId → String → β
  parameter : NodeId → β
  literal : NodeId → Value → β
  and : NodeId → NodeId → NodeId → β
  or : NodeId → NodeId → NodeId → β
  equals : NodeId → NodeId → NodeId → β
  textMatch : NodeId → NodeId → NodeId → β

/-- The callback for an operator. -/
def Visitor.binary {β : Type} (v : Visitor β) : BinaryOp → NodeId → NodeId → NodeId → β
  | .and => v.and
  | .or => v.or
  | .equals => v.equals
  | .textMatch => v.textMatch

namespace Tree

def count (t : Tree) : Nat := t.slots.size

/-- The places of all nodes, each after those of its children. -/
def nodes (t : Tree) : List NodeId := List.range t.count

def node? (t : Tree) (id : NodeId) : Option Node := (t.slots[id]?).map Slot.node

def parent? (t : Tree) (id : NodeId) : Option NodeId := (t.slots[id]?).bind Slot.parent

def isRoot (t : Tree) (id : NodeId) : Bool := (t.parent? id).isNone

def children? (t : Tree) (id : NodeId) : Option (NodeId × NodeId) :=
  match t.node? id with
  | some (.binary _ l r) => some (l, r)
  | _ => none

def operator? (t : Tree) (id : NodeId) : Option BinaryOp :=
  match t.node? id with
  | some (.binary op _ _) => some op
  | _ => none

def fieldName? (t : Tree) (id : NodeId) : Option String :=
  match t.node? id with
  | some (.field name) => some name
  | _ => none

/-- Calls the callback for the form of a node. -/
def accept {β : Type} (t : Tree) (v : Visitor β) (id : NodeId) : Option β :=
  (t.node? id).map fun
    | .field name => v.field id name
    | .parameter => v.parameter id
    | .literal value => v.literal id value
    | .binary op l r => v.binary op id l r

/-- The parents from `id?` up, at most `steps` of them. -/
def chain (t : Tree) : Nat → Option NodeId → List NodeId
  | 0, _ => []
  | _, none => []
  | steps + 1, some id => id :: t.chain steps (t.parent? id)

/-- The parent of a node, its parent, and so on to the root. No node comes twice, so that as many
steps as there are nodes suffice. -/
def ancestors (t : Tree) (id : NodeId) : List NodeId := t.chain t.count (t.parent? id)

end Tree

/-- A node together with the tree it belongs to, which its owner has given a number. -/
structure Handle where
  tree : Nat
  id : NodeId
  deriving DecidableEq, Repr

/-- The node of a place, if the tree numbered `number` has one there. -/
def Tree.handle? (t : Tree) (number : Nat) (id : NodeId) : Option Handle :=
  if id < t.count then some ⟨number, id⟩ else none

end RowFilter
