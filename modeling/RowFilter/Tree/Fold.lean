import RowFilter.Expr.Text
import RowFilter.Tree.Basic

/-! What a node comes to, given what its children come to. The children are evaluated when they
are asked for (`Tree.evaluate`), or all nodes are filled into a table in the order of their places
and the children looked up in it (`Tree.table`). In the first way `Tree.expr?` reads the
expression below a node, `Tree.postOrder?` the nodes of a subtree in order, and `Tree.outline` the
tree in prefix form. -/

namespace RowFilter

variable {β : Type}

/-- What each form of node comes to. -/
structure Fold (β : Type) where
  field : NodeId → String → β
  parameter : NodeId → β
  literal : NodeId → Value → β
  and : NodeId → β → β → β
  or : NodeId → β → β → β
  equals : NodeId → β → β → β
  textMatch : NodeId → β → β → β

/-- A fold that does much the same for every operator. -/
def Fold.ofOperator (field : NodeId → String → β) (parameter : NodeId → β)
    (literal : NodeId → Value → β) (binary : BinaryOp → NodeId → β → β → β) : Fold β where
  field := field
  parameter := parameter
  literal := literal
  and := binary .and
  or := binary .or
  equals := binary .equals
  textMatch := binary .textMatch

/-- The visitor that asks `result` for what the children of a node come to. -/
def Fold.visitor (f : Fold β) (result : NodeId → Option β) : Visitor (Option β) :=
  let both (join : NodeId → β → β → β) (id l r : NodeId) : Option β :=
    (result l).bind fun x => (result r).map fun y => join id x y
  { field := fun id name => some (f.field id name)
    parameter := fun id => some (f.parameter id)
    literal := fun id value => some (f.literal id value)
    and := both f.and
    or := both f.or
    equals := both f.equals
    textMatch := both f.textMatch }

namespace Tree

/-- What a node comes to, its children no more than `depth` levels down. -/
def evaluateWithin (t : Tree) (f : Fold β) : Nat → NodeId → Option β
  | 0, _ => none
  | depth + 1, id => (t.accept (f.visitor (t.evaluateWithin f depth)) id).join

/-- What a node comes to. No tree is deeper than it has nodes. -/
def evaluate (t : Tree) (f : Fold β) (id : NodeId) : Option β := t.evaluateWithin f t.count id

/-- Adds what the next node comes to. -/
def extend (t : Tree) (f : Fold β) (table : Array (Option β)) (id : NodeId) :
    Array (Option β) :=
  table.push (t.accept (f.visitor fun child => (table[child]?).join) id).join

/-- What every node comes to. -/
def table (t : Tree) (f : Fold β) : Array (Option β) := t.nodes.foldl (t.extend f) #[]

end Tree

/-! ## Expressions and subtrees -/

def Fold.expr : Fold (Expr Value) :=
  .ofOperator (fun _ name => .field name) (fun _ => .parameter) (fun _ value => .literal value)
    fun op _ => .binary op

/-- The expression below a node. -/
def Tree.expr? (t : Tree) (id : NodeId) : Option (Expr Value) := t.evaluate Fold.expr id

def Fold.postOrder : Fold (List NodeId) :=
  .ofOperator (fun id _ => [id]) (fun id => [id]) (fun id _ => [id])
    fun _ id left right => left ++ right ++ [id]

/-- The nodes of a subtree, children before their parent and left before right. -/
def Tree.postOrder? (t : Tree) (id : NodeId) : Option (List NodeId) := t.evaluate Fold.postOrder id

/-! ## Outlines -/

def NodeId.text (id : NodeId) : List Char := '#' :: Text.natural id

/-- Each node by its form and place, the text built in front of what follows. -/
def Fold.outline : Fold (List Char → List Char) :=
  let node (name : String) (id : NodeId) (rest : List Char) : List Char :=
    name.toList ++ id.text ++ rest
  .ofOperator (fun id name rest => node "field" id (':' :: name.toList ++ rest))
    (fun id => node "param" id)
    (fun id value rest => node value.kind id (':' :: value.text.toList ++ rest))
    fun op id left right rest =>
      node op.name id ('(' :: left (',' :: ' ' :: right (')' :: rest)))

/-- The tree below a node in prefix form. -/
def Tree.outline (t : Tree) (id : NodeId) : Option String :=
  (t.evaluate Fold.outline id).map fun text => String.ofList (text [])

end RowFilter
