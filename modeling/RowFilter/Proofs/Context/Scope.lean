import RowFilter.Proofs.Context.Marks
import RowFilter.Proofs.Tree.Ancestry

/-!
# What is in document context

A node is in document context if one of its ancestors is marked. The scan from
the last node back finds the same, since it comes to every parent before the
children of that parent.

* `Context.inContext_eq`: the walk up looks for a marked ancestor;
* `Context.scope_getElem?`: so does the scan, whatever marks there are;
* `Context.scope_eq_inContext`: in an assembled tree the two agree throughout;
* `Context.covers_root`, `Context.covers_of_parent`: how document context comes
  down an assembled tree.
-/

namespace RowFilter

/-- Whether the operands of an operator are in document context. -/
def Expr.within (s : Schema) (inContext : Bool) (op : BinaryOp) (l r : Expr Value) : Bool :=
  inContext || (Expr.binary op l r).isMarked s

namespace Context

variable {t : Tree}

/-- Whether one of the ancestors of a node is marked. -/
def underMark (t : Tree) (a : Annotations) (id : NodeId) : Bool :=
  (t.ancestors id).any fun ancestor => a.isMarked ancestor key

theorem underMark_of_parent (up : t.Upward) (a : Annotations) {id parent : Nat}
    (h : t.parent? id = some parent) :
    underMark t a id = (underMark t a parent || a.isMarked parent key) := by
  rw [underMark, Tree.ancestors_of_parent up h, List.any_cons, Bool.or_comm]
  rfl

theorem underMark_of_root (a : Annotations) {id : NodeId} (h : t.parent? id = none) :
    underMark t a id = false := by
  rw [underMark, Tree.ancestors_of_root h]
  rfl

theorem inContext_eq (a : Annotations) (id : NodeId) :
    inContext t a id = underMark t a id := by
  have walk (ids : List NodeId) : (visitAll (fun ancestor found =>
      if a.isMarked ancestor key then (false, true) else (true, found)) ids false).2 =
        ids.any fun ancestor => a.isMarked ancestor key := by
    induction ids with
    | nil => rfl
    | cons ancestor ids ih =>
      rw [visitAll, List.any_cons]
      cases a.isMarked ancestor key with
      | true => rfl
      | false => exact ih
  exact walk (t.ancestors id)

/-- What the scan has entered once it has come down to `stop`. -/
structure Scanned (t : Tree) (a : Annotations) (stop : Nat) (scope : Array Bool) : Prop where
  size : scope.size = t.count
  /-- The nodes that are done know whether they are under a mark. -/
  done : ∀ id, stop ≤ id → id < t.count → scope[id]? = some (underMark t a id)
  /-- The others have not been touched. -/
  blank : ∀ id, id < stop → id < t.count → scope[id]? = some false

theorem Scanned.step (up : t.Upward) {a : Annotations} {stop : Nat} {scope : Array Bool}
    (h : Scanned t a (stop + 1) scope) (inside : stop < t.count) :
    Scanned t a stop (scopeStep t a scope stop) := by
  cases parent : t.parent? stop with
  | none =>
    have untouched : scopeStep t a scope stop = scope := by simp only [scopeStep, parent]
    rw [untouched]
    refine ⟨h.size, fun id first last => ?_, fun id lt last => h.blank id (by omega) last⟩
    by_cases own : id = stop
    · subst own
      rw [underMark_of_root a parent]
      exact h.blank id (by omega) last
    · exact h.done id (by omega) last
  | some p =>
    have after := up stop p parent
    have known : scope[p]? = some (underMark t a p) := h.done p after.1 after.2
    have entered : scopeStep t a scope stop = scope.setIfInBounds stop (underMark t a stop) := by
      simp only [scopeStep, parent, known, Option.getD_some, underMark_of_parent up a parent]
    rw [entered]
    refine ⟨by simpa using h.size, fun id first last => ?_, fun id lt last => ?_⟩
    · by_cases own : id = stop
      · subst own
        simp [h.size, last]
      · rw [Array.getElem?_setIfInBounds_ne (Ne.symm own)]
        exact h.done id (by omega) last
    · rw [Array.getElem?_setIfInBounds_ne (by omega)]
      exact h.blank id (by omega) last

theorem Scanned.run (up : t.Upward) {a : Annotations} (stop : Nat) (le : stop ≤ t.count)
    {scope : Array Bool} (h : Scanned t a stop scope) :
    Scanned t a 0 ((List.range stop).reverse.foldl (scopeStep t a) scope) := by
  induction stop generalizing scope with
  | zero => exact h
  | succ stop ih =>
    rw [List.range_succ, List.reverse_append, List.foldl_append]
    exact ih (by omega) (h.step up (by omega))

theorem scope_scanned (up : t.Upward) (a : Annotations) : Scanned t a 0 (scope t a) := by
  refine Scanned.run up t.count (Nat.le_refl _) ⟨by simp, fun id first last => ?_, ?_⟩
  · omega
  · intro id first last
    simp [first]

/-- **The scan finds what a walk up from each node finds**, whatever marks there are. -/
theorem scope_getElem? (up : t.Upward) (a : Annotations) {id : Nat} (inside : id < t.count) :
    (scope t a)[id]? = some (underMark t a id) :=
  (scope_scanned up a).done id (Nat.zero_le id) inside

/-! ## Assembled trees -/

/-- **The scan and the walks agree on every node of an assembled tree**, whatever is noted in the
table, for whatever nodes and under whatever keys. -/
theorem scope_eq_inContext (e : Expr Value) (a : Annotations) :
    (scope (Tree.ofExpr e) a).size = (Tree.ofExpr e).count ∧
      (scope (Tree.ofExpr e) a).toList =
        (Tree.ofExpr e).nodes.map (inContext (Tree.ofExpr e) a) := by
  have up := Tree.ofExpr_upward e
  have size := (scope_scanned up a).size
  refine ⟨size, List.ext_getElem? fun id => ?_⟩
  by_cases inside : id < (Tree.ofExpr e).count
  · rw [Array.getElem?_toList, scope_getElem? up a inside, List.getElem?_map, Tree.nodes,
      List.getElem?_range inside, Option.map_some, inContext_eq]
  · have outside := Nat.le_of_not_lt inside
    rw [List.getElem?_eq_none (by simpa only [Array.length_toList, size] using outside),
      List.getElem?_eq_none (by simpa only [List.length_map, Tree.nodes, List.length_range])]

/-- Whether a node is in document context, given which fields are columns. -/
def covers (s : Schema) (t : Tree) (id : NodeId) : Bool := underMark t (mark t s t.root) id

theorem scope_ofExpr (s : Schema) (e : Expr Value) {id : Nat} (inside : id < e.size) :
    (scope (Tree.ofExpr e) (mark (Tree.ofExpr e) s (Tree.ofExpr e).root))[id]? =
      some (covers s (Tree.ofExpr e) id) :=
  scope_getElem? (Tree.ofExpr_upward e) _ (by simpa using inside)

theorem covers_root (s : Schema) (e : Expr Value) :
    covers s (Tree.ofExpr e) (e.place 0) = false :=
  underMark_of_root _ (Tree.ofExpr_holds e).parent?

/-- Document context comes down to every part of an expression, and begins below an expression
that is marked. -/
theorem covers_of_parent (s : Schema) {whole e : Expr Value} {start : Nat}
    {above : Option NodeId} (h : (Tree.ofExpr whole).Holds start above e) {id : Nat}
    (parent : (Tree.ofExpr whole).parent? id = some (e.place start)) :
    covers s (Tree.ofExpr whole) id =
      (covers s (Tree.ofExpr whole) (e.place start) || e.isMarked s) := by
  rw [covers, underMark_of_parent (Tree.ofExpr_upward whole) _ parent]
  congr 1
  exact Bool.eq_iff_iff.2 ((isMarked_ofExpr s whole _).trans (Tree.reaches_iff_isMarked h))

theorem covers_operand (s : Schema) {whole l r : Expr Value} {op : BinaryOp} {start : Nat}
    {above : Option NodeId} (h : (Tree.ofExpr whole).Holds start above (.binary op l r))
    {inContext : Bool}
    (context : covers s (Tree.ofExpr whole) ((Expr.binary op l r).place start) = inContext)
    {id : Nat}
    (parent : (Tree.ofExpr whole).parent? id = some ((Expr.binary op l r).place start)) :
    covers s (Tree.ofExpr whole) id = Expr.within s inContext op l r := by
  rw [covers_of_parent s h parent, context]
  rfl

end Context

end RowFilter
