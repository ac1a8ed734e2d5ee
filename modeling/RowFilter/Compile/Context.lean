import RowFilter.Schema.Basic
import RowFilter.Tree.Annotations
import RowFilter.Tree.Walk

/-! A constant that is compared with an attribute of the document has to be bound as part of a
document. Whether that is so cannot be seen from the constant, so a pass of its own marks the fields
of the document and every equality above a marked node; a node is in document context if one of its
ancestors is marked. -/

namespace RowFilter.Context

def key : String := "JSON"

/-- Marks one node, the nodes below it having been marked before. -/
def markNode (t : Tree) (s : Schema) (id : NodeId) (a : Annotations) : Annotations :=
  match t.node? id with
  | some (.field name) => if s.isDocumentField name then a.set id key (.bool true) else a
  | some (.binary .equals l r) =>
    if a.isMarked l key || a.isMarked r key then a.set id key (.bool true) else a
  | _ => a

/-- The marks of the nodes below `start`. -/
def mark (t : Tree) (s : Schema) (start : NodeId) : Annotations :=
  (t.walkPostOrder (fun id a => (true, markNode t s id a)) start .empty).2

/-- Whether an ancestor of the node is marked; the first that is ends the walk. -/
def inContext (t : Tree) (a : Annotations) (id : NodeId) : Bool :=
  t.walkUp (fun ancestor found =>
    if a.isMarked ancestor key then (false, true) else (true, found)) id false

/-- Enters whether a node is in document context, given the same for its parent. -/
def scopeStep (t : Tree) (a : Annotations) (scope : Array Bool) (id : NodeId) : Array Bool :=
  match t.parent? id with
  | some parent => scope.setIfInBounds id ((scope[parent]?).getD false || a.isMarked parent key)
  | none => scope

/-- Whether each node is in document context. Parents come after their children, so from the last
node back each parent is known before its children ask. -/
def scope (t : Tree) (a : Annotations) : Array Bool :=
  t.nodes.reverse.foldl (scopeStep t a) (Array.replicate t.count false)

end RowFilter.Context
