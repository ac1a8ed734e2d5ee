import RowFilter.Proofs.Compile.Leaves

namespace RowFilter

/-- What a node holds, unless it is an operator. -/
def Node.atom? : Node → Option Atom
  | .field name => some (.field name)
  | .parameter => some .parameter
  | .literal v => some (.literal v)
  | .binary _ _ _ => none

namespace Tree

def leaf? (s : Schema) (t : Tree) (id : NodeId) : Option Leaf :=
  ((t.node? id).bind Node.atom?).map fun atom => ⟨id, Context.covers s t id, atom⟩

/-- The leaves of a tree in the order of their places. -/
def leaves (s : Schema) (t : Tree) : List Leaf := t.nodes.filterMap (t.leaf? s)

variable {s : Schema} {t : Tree}

theorem leaf?_of_node {id : NodeId} {node : Node} (h : t.node? id = some node) :
    t.leaf? s id = node.atom?.map fun atom => ⟨id, Context.covers s t id, atom⟩ := by
  rw [leaf?, h, Option.bind_some]

theorem leaf?_eq_some_iff {id : NodeId} {leaf : Leaf} :
    t.leaf? s id = some leaf ↔
      ∃ node atom, t.node? id = some node ∧ node.atom? = some atom ∧
        leaf = ⟨id, Context.covers s t id, atom⟩ := by
  simp only [leaf?, Option.map_eq_some_iff, Option.bind_eq_some_iff]
  grind

theorem place_of_leaf? {id : NodeId} {leaf : Leaf} (h : t.leaf? s id = some leaf) :
    leaf.place = id := by
  obtain ⟨node, atom, -, -, rfl⟩ := leaf?_eq_some_iff.1 h
  rfl

theorem mem_leaves {leaf : Leaf} : leaf ∈ t.leaves s ↔ t.leaf? s leaf.place = some leaf := by
  constructor
  · intro mem
    obtain ⟨id, -, found⟩ := List.mem_filterMap.1 mem
    rwa [place_of_leaf? found]
  · intro found
    refine List.mem_filterMap.2 ⟨leaf.place, List.mem_range.2 ?_, found⟩
    obtain ⟨node, atom, inside, -, -⟩ := leaf?_eq_some_iff.1 found
    exact node?_lt_count inside

theorem pairwise_leaves (s : Schema) (t : Tree) :
    (t.leaves s).Pairwise fun first second => first.place < second.place := by
  refine List.Pairwise.filterMap _ (fun id id' lt leaf found leaf' found' => ?_)
    List.pairwise_lt_range
  rwa [place_of_leaf? found, place_of_leaf? found']

theorem filterMap_leaf? {whole e : Expr Value} {start : Nat} {above : Option NodeId}
    (h : (Tree.ofExpr whole).Holds start above e) {inContext : Bool}
    (context : Context.covers s (Tree.ofExpr whole) (e.place start) = inContext) :
    (List.range' start e.size).filterMap ((Tree.ofExpr whole).leaf? s) =
      e.leaves s inContext start := by
  induction e generalizing start above inContext with
  | field name =>
    have leaf : (Tree.ofExpr whole).leaf? s start = some ⟨start, inContext, .field name⟩ :=
      context ▸ leaf?_of_node h.node?
    simp [Expr.size, Expr.leaves, leaf]
  | parameter =>
    have leaf : (Tree.ofExpr whole).leaf? s start = some ⟨start, inContext, .parameter⟩ :=
      context ▸ leaf?_of_node h.node?
    simp [Expr.size, Expr.leaves, leaf]
  | literal v =>
    have leaf : (Tree.ofExpr whole).leaf? s start = some ⟨start, inContext, .literal v⟩ :=
      context ▸ leaf?_of_node h.node?
    simp [Expr.size, Expr.leaves, leaf]
  | binary op l r hl hr =>
    have left := hl h.left (Context.covers_operand s h context h.left.parent?)
    have right := hr h.right (Context.covers_operand s h context h.right.parent?)
    have operator : (Tree.ofExpr whole).leaf? s ((Expr.binary op l r).place start) = none :=
      leaf?_of_node h.node?
    rw [Expr.range_binary, List.filterMap_append, List.filterMap_append, left, right,
      List.filterMap_cons, operator, List.filterMap_nil, Expr.leaves, List.append_nil]

/-- **An assembled tree stores the leaves of its expression from left to right.** -/
theorem leaves_ofExpr (s : Schema) (e : Expr Value) :
    (Tree.ofExpr e).leaves s = e.leaves s false 0 := by
  have nodes : (Tree.ofExpr e).nodes = List.range' 0 e.size := by
    rw [Tree.nodes, Tree.ofExpr_count, List.range_eq_range']
  rw [leaves, nodes]
  exact filterMap_leaf? (Tree.ofExpr_holds e) (Context.covers_root s e)

end Tree

end RowFilter
