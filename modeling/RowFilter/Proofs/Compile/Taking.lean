import RowFilter.Proofs.Compile.Failures
import RowFilter.Proofs.Tree.Links

/-!
# Clauses are taken once

While the nodes of a tree are compiled, a place of the table is empty for one of
two reasons: its clause has been taken, or something below it has failed. The
parent of a node tells them apart, since nobody else takes from its place.

* `Compiler.emitUpTo`: the emission after the first nodes;
* `Emission.Tabled`: what the table holds by then;
* `Emission.Tabled.leaf`, `Emission.Tabled.operator`: the next node keeps it so;
* `Emission.Takes`: taking a clause that is there to be taken;
* `Compiler.compile_takes`: every clause that a compilation takes is taken so.
-/

namespace RowFilter

namespace Tree

variable {e : Expr Value} {top id : Nat}

theorem under_operator_iff {l r : Nat} (children : (Tree.ofExpr e).children? top = some (l, r)) :
    (Tree.ofExpr e).Under top id ↔
      id = top ∨ (Tree.ofExpr e).Under l id ∨ (Tree.ofExpr e).Under r id := by
  have root : (Tree.ofExpr e).Under top top :=
    .self (ofExpr_upward e l top (ofExpr_children children).1).2
  constructor
  · intro under
    induction under with
    | self => exact .inl rfl
    | left _ links ih =>
      rcases ih with rfl | under | under
      · cases links.symm.trans children
        exact .inr (.inl (.self (parent?_lt_count (ofExpr_children links).1)))
      · exact .inr (.inl (under.left links))
      · exact .inr (.inr (under.left links))
    | right _ links ih =>
      rcases ih with rfl | under | under
      · cases links.symm.trans children
        exact .inr (.inr (.self (parent?_lt_count (ofExpr_children links).2.1)))
      · exact .inr (.inl (under.right links))
      · exact .inr (.inr (under.right links))
  · rintro (rfl | under | under)
    · exact root
    · exact (root.left children).trans under
    · exact (root.right children).trans under

theorem Under.of_leaf {t : Tree} (h : t.Under top id) (leaf : t.children? top = none) :
    id = top := by
  induction h with
  | self => rfl
  | left _ links ih | right _ links ih =>
    rw [ih, leaf] at links
    cases links

theorem Under.le (h : (Tree.ofExpr e).Under top id) : id ≤ top := by
  induction h with
  | self => exact Nat.le_refl _
  | left _ links ih =>
    exact Nat.le_trans (Nat.le_of_lt (ofExpr_upward e _ _ (ofExpr_children links).1).1) ih
  | right _ links ih =>
    exact Nat.le_trans (Nat.le_of_lt (ofExpr_upward e _ _ (ofExpr_children links).2.1).1) ih

/-- The operands of a node. -/
def operands (t : Tree) (id : NodeId) : List NodeId :=
  match t.children? id with
  | some (l, r) => [l, r]
  | none => []

/-- The operands of the first `k` nodes, in the order in which their clauses are taken. -/
def operandsUpTo (t : Tree) (k : Nat) : List NodeId := (List.range k).flatMap t.operands

/-- A node is among the operands of the first nodes if its parent is one of them. -/
theorem mem_operandsUpTo {k : Nat} :
    id ∈ (Tree.ofExpr e).operandsUpTo k ↔
      ∃ parent < k, (Tree.ofExpr e).parent? id = some parent := by
  have operand {parent : Nat} : id ∈ (Tree.ofExpr e).operands parent ↔
      (Tree.ofExpr e).parent? id = some parent := by
    rw [ofExpr_parent?_iff, operands, IsChild]
    rcases (Tree.ofExpr e).children? parent with _ | ⟨l, r⟩
    · simp
    · simp only [List.mem_cons, List.not_mem_nil, or_false, Option.some.injEq, Prod.mk.injEq]
      exact ⟨fun operand => ⟨l, r, ⟨rfl, rfl⟩, operand⟩, fun ⟨_, _, ⟨rfl, rfl⟩, operand⟩ => operand⟩
  simp only [operandsUpTo, List.mem_flatMap, List.mem_range, operand]

end Tree

/-! ## The table -/

/-- Some leaf in the subtree of a node fails. -/
def Compiler.FailsBelow (c : Compiler) (t : Tree) (id : NodeId) : Prop :=
  ∃ leaf cause, t.Under id leaf ∧ c.Fails t leaf cause

/-- Only leaves fail. -/
theorem Compiler.Fails.leaf {c : Compiler} {t : Tree} {id : NodeId} {cause : CompileError.Cause}
    (h : c.Fails t id cause) : t.children? id = none := by
  cases h with
  | parameter node | quote node | sign node | kind node | number node => simp [Tree.children?, node]

theorem Tree.children?_of_leaf? {s : Schema} {t : Tree} {id : NodeId} {leaf : Leaf}
    (found : t.leaf? s id = some leaf) : t.children? id = none := by
  obtain ⟨node, atom, inside, held, -⟩ := Tree.leaf?_eq_some_iff.1 found
  cases node with
  | binary op l r => cases held
  | _ => simp [Tree.children?, inside]

section
variable {c : Compiler} {t : Tree} {id : NodeId} {leaf : Leaf}
variable (found : t.leaf? c.schema id = some leaf)
include found

theorem Leaf.error?_eq_some_iff {err : CompileError} :
    leaf.error? c = some err ↔ err.node = id ∧ c.Fails t id err.cause := by
  rw [Compiler.fails_iff, Leaf.error?, Option.map_eq_some_iff, Tree.place_of_leaf? found]
  constructor
  · rintro ⟨cause, fault, rfl⟩
    exact ⟨rfl, leaf, found, fault⟩
  · rintro ⟨rfl, leaf', found', fault⟩
    cases found.symm.trans found'
    exact ⟨err.cause, fault, rfl⟩

/-- Below a leaf nothing can fail but the leaf itself. -/
theorem Leaf.error?_eq_none_iff : leaf.error? c = none ↔ ¬c.FailsBelow t id := by
  constructor
  · rintro none ⟨below, cause, under, failed⟩
    rw [under.of_leaf (Tree.children?_of_leaf? found)] at failed
    have error : leaf.error? c = some ⟨id, cause⟩ := (error?_eq_some_iff found).2 ⟨rfl, failed⟩
    cases none.symm.trans error
  · intro sound
    refine Option.eq_none_iff_forall_ne_some.2 fun err error => sound ?_
    obtain ⟨-, failed⟩ := (error?_eq_some_iff found).1 error
    obtain ⟨node, -, inside, -⟩ := Tree.leaf?_eq_some_iff.1 found
    exact ⟨id, err.cause, .self (Tree.node?_lt_count inside), failed⟩

end

/-- Below an operator something fails exactly if it does below one of the operands. -/
theorem Compiler.failsBelow_operator_iff {c : Compiler} {e : Expr Value} {top l r : NodeId}
    (children : (Tree.ofExpr e).children? top = some (l, r)) :
    c.FailsBelow (Tree.ofExpr e) top ↔
      c.FailsBelow (Tree.ofExpr e) l ∨ c.FailsBelow (Tree.ofExpr e) r := by
  constructor
  · rintro ⟨id, cause, under, failed⟩
    rcases (Tree.under_operator_iff children).1 under with rfl | under | under
    · cases children.symm.trans failed.leaf
    · exact .inl ⟨id, cause, under, failed⟩
    · exact .inr ⟨id, cause, under, failed⟩
  · rintro (⟨id, cause, under, failed⟩ | ⟨id, cause, under, failed⟩)
    · exact ⟨id, cause, (Tree.under_operator_iff children).2 (.inr (.inl under)), failed⟩
    · exact ⟨id, cause, (Tree.under_operator_iff children).2 (.inr (.inr under)), failed⟩

namespace Emission

variable {c : Compiler} {t : Tree} {k : Nat} {s : Emission}

/-- What an emission has come to once the first `k` nodes are done. -/
structure Tabled (c : Compiler) (t : Tree) (k : Nat) (s : Emission) : Prop where
  size : s.clauses.size = k
  /-- Where the parent is done, the clause has been taken. -/
  taken : ∀ id < k, (∃ parent : Nat, t.parent? id = some parent ∧ parent < k) →
    s.clauses[id]? = some none
  /-- Everywhere else there is a clause exactly if nothing below fails. -/
  kept : ∀ id < k, (∀ parent : Nat, t.parent? id = some parent → k ≤ parent) →
    ∃ clause, s.clauses[id]? = some clause ∧ (clause.isSome = true ↔ ¬c.FailsBelow t id)
  errors : ∀ err, err ∈ s.errors ↔ err.node < k ∧ c.Fails t err.node err.cause

theorem tabled_empty (c : Compiler) (t : Tree) : Tabled c t 0 .empty where
  size := rfl
  taken _ inside := absurd inside (Nat.not_lt_zero _)
  kept _ inside := absurd inside (Nat.not_lt_zero _)
  errors err := by simp [empty]

/-- A leaf adds its error, if it has one, and otherwise its clause. -/
theorem step_leaf {scope : Array Bool} {id : NodeId} {leaf : Leaf}
    (found : t.leaf? c.schema id = some leaf) (known : scope[id]? = some leaf.inContext)
    (s : Emission) :
    ∃ clause bindings, step t (visitor c.schema c.dialect scope) s id =
        ⟨bindings, s.errors ++ (leaf.error? c).toArray, s.clauses.push clause⟩ ∧
      (clause.isSome = true ↔ leaf.error? c = none) := by
  obtain ⟨bound, errors, clauses, rfl⟩ : ∃ bound errors clauses, s = of bound errors clauses :=
    ⟨s.bindings.values.toList, s.errors.toList, s.clauses.toList, rfl⟩
  obtain ⟨node, atom, inside, held, rfl⟩ := Tree.leaf?_eq_some_iff.1 found
  cases node with
  | field name =>
    obtain rfl := Option.some.inj held
    rw [step_field inside]
    simp only [Leaf.error?, Leaf.fault?]
    cases c.fieldClause name <;> simp [of]
  | parameter =>
    obtain rfl := Option.some.inj held
    rw [step_parameter inside]
    simp [Leaf.error?, Leaf.fault?, of]
  | literal v =>
    obtain rfl := Option.some.inj held
    rw [step_literal inside known]
    simp only [Leaf.error?, Leaf.fault?]
    cases Compiler.bound? _ v <;> simp [of]
  | binary op l r => cases held

/-- An operator takes the clauses of its operands, the left one first, and adds what they make. -/
theorem step_operator {scope : Array Bool} {id l r : NodeId} {op : BinaryOp}
    (node : t.node? id = some (.binary op l r)) (s : Emission) :
    step t (visitor c.schema c.dialect scope) s id =
      { ((s.take l).2.take r).2 with
        clauses := ((s.take l).2.take r).2.clauses.push
          ((s.take l).1.bind fun x => ((s.take l).2.take r).1.map fun y => c.joined op x y) } := by
  simp only [step, Tree.accept, node, Option.map_some, visitor_binary, join]

@[simp] theorem fst_take (s : Emission) (id : NodeId) : (s.take id).1 = (s.clauses[id]?).join := rfl

@[simp] theorem errors_take (s : Emission) (id : NodeId) : (s.take id).2.errors = s.errors := rfl

@[simp] theorem clauses_take (s : Emission) (id : NodeId) :
    (s.take id).2.clauses = s.clauses.setIfInBounds id none := rfl

theorem fst_take_take {l r : NodeId} (apart : l ≠ r) (s : Emission) :
    ((s.take l).2.take r).1 = (s.take r).1 := by
  rw [fst_take, clauses_take, Array.getElem?_setIfInBounds_ne apart, fst_take]

/-! ### What one node does -/

section
variable {e : Expr Value} {scope : Array Bool}

/-- **A leaf keeps the table in order**: nothing is taken, and its own place is empty exactly if it
fails. -/
theorem Tabled.leaf (h : Tabled c (Tree.ofExpr e) k s) {leaf : Leaf}
    (found : (Tree.ofExpr e).leaf? c.schema k = some leaf)
    (known : scope[k]? = some leaf.inContext) :
    Tabled c (Tree.ofExpr e) (k + 1)
      (step (Tree.ofExpr e) (visitor c.schema c.dialect scope) s k) := by
  obtain ⟨clause, bindings, done, present⟩ := step_leaf found known s
  have notParent {id parent : Nat} (link : (Tree.ofExpr e).parent? id = some parent) :
      parent ≠ k := by
    rintro rfl
    obtain ⟨-, -, l, r, children, -⟩ := Tree.ofExpr_parent link
    cases children.symm.trans (Tree.children?_of_leaf? found)
  have old {id : Nat} (inside : id < k) : (s.clauses.push clause)[id]? = s.clauses[id]? := by
    rw [Array.getElem?_push_lt (h.size.symm ▸ inside), Array.getElem?_eq_getElem]
  rw [done]
  refine ⟨by simp [h.size], ?_, ?_, ?_⟩
  · rintro id - ⟨parent, link, below⟩
    have := (Tree.ofExpr_upward e id parent link).1
    have := notParent link
    rw [old (by omega)]
    exact h.taken id (by omega) ⟨parent, link, by omega⟩
  · intro id inside waits
    by_cases last : id = k
    · subst last
      refine ⟨clause, ?_, present.trans (Leaf.error?_eq_none_iff found)⟩
      rw [← h.size, Array.getElem?_push_size]
    · have before : id < k := by omega
      rw [old before]
      exact h.kept id before fun parent link => Nat.le_of_succ_le (waits parent link)
  · intro err
    have own : leaf.error? c = some err ↔
        err.node = k ∧ c.Fails (Tree.ofExpr e) err.node err.cause := by
      rw [Leaf.error?_eq_some_iff found]
      exact and_congr_right fun here => by rw [here]
    rw [Array.mem_append, Option.mem_toArray, h.errors, own, Nat.lt_succ_iff_lt_or_eq,
      or_and_right]

/-- **An operator keeps the table in order**: it empties the places of its operands, and its own
place is empty exactly if something fails below one of them. -/
theorem Tabled.operator (h : Tabled c (Tree.ofExpr e) k s) {op : BinaryOp} {l r : NodeId}
    (node : (Tree.ofExpr e).node? k = some (.binary op l r)) :
    Tabled c (Tree.ofExpr e) (k + 1)
      (step (Tree.ofExpr e) (visitor c.schema c.dialect scope) s k) := by
  have children := Tree.children?_eq_some_iff.2 ⟨op, node⟩
  obtain ⟨linkLeft, linkRight, apart⟩ := Tree.ofExpr_children children
  have left := (Tree.ofExpr_upward e l k linkLeft).1
  have right := (Tree.ofExpr_upward e r k linkRight).1
  have waits {id : Nat} (link : (Tree.ofExpr e).parent? id = some k) (parent : Nat)
      (link' : (Tree.ofExpr e).parent? id = some parent) : k ≤ parent := by
    rw [link, Option.some.injEq] at link'
    exact Nat.le_of_eq link'
  obtain ⟨x, atLeft, leftSound⟩ := h.kept l left (waits linkLeft)
  obtain ⟨y, atRight, rightSound⟩ := h.kept r right (waits linkRight)
  have joined : ((s.take l).1.bind fun x => ((s.take l).2.take r).1.map fun y =>
      c.joined op x y).isSome = true ↔ ¬c.FailsBelow (Tree.ofExpr e) k := by
    rw [fst_take_take (Nat.ne_of_lt apart), fst_take, fst_take, atLeft, atRight,
      Compiler.failsBelow_operator_iff children, not_or, ← leftSound, ← rightSound]
    cases x <;> cases y <;> simp
  rw [step_operator node]
  generalize ((s.take l).1.bind fun x => ((s.take l).2.take r).1.map fun y =>
    c.joined op x y) = clause at joined ⊢
  have behind {id : Nat} (inside : id < k) :
      (((s.take l).2.take r).2.clauses.push clause)[id]? =
        if r = id then some none else if l = id then some none else s.clauses[id]? := by
    rw [clauses_take, clauses_take, Array.getElem?_push, if_neg (by simp [h.size]; omega),
      Array.getElem?_setIfInBounds, Array.getElem?_setIfInBounds]
    simp only [Array.size_setIfInBounds, h.size, left, right, if_true]
  refine ⟨by simp [h.size], ?_, ?_, ?_⟩
  · rintro id - ⟨parent, link, below⟩
    by_cases own : parent = k
    · subst own
      obtain ⟨l', r', children', operand⟩ := Tree.ofExpr_parent?_iff.1 link
      cases children.symm.trans children'
      have before : id < parent := by omega
      rw [behind before]
      rcases operand with rfl | rfl <;> simp
    · have before : id < k := by
        have := (Tree.ofExpr_upward e id parent link).1
        omega
      rw [behind before, h.taken id before ⟨parent, link, by omega⟩, ite_self, ite_self]
  · intro id inside waits
    by_cases last : id = k
    · subst last
      have size : ((s.take l).2.take r).2.clauses.size = id := by simp [h.size]
      refine ⟨clause, ?_, joined⟩
      rw [← size, Array.getElem?_push_size]
    · have before : id < k := by omega
      have notOperand {operand : Nat} (link : (Tree.ofExpr e).parent? operand = some k) :
          operand ≠ id := by
        rintro rfl
        exact absurd (waits k link) (Nat.not_succ_le_self k)
      rw [behind before, if_neg (notOperand linkRight), if_neg (notOperand linkLeft)]
      exact h.kept id before fun parent link => Nat.le_of_succ_le (waits parent link)
  · intro err
    rw [errors_take, errors_take, h.errors, Nat.lt_succ_iff_lt_or_eq, or_and_right]
    refine (or_iff_left ?_).symm
    rintro ⟨here, failed⟩
    have := failed.leaf
    rw [here, children] at this
    cases this

end

/-! ### Taking -/

/-- A clause is taken from a place that is in the table and that nobody took from before. If nothing
is found there, an error in its subtree has been recorded, and only then. -/
structure Takes (t : Tree) (before : List NodeId) (s : Emission) (id : NodeId) : Prop where
  inside : id < s.clauses.size
  first : id ∉ before
  explained : (s.take id).1 = none ↔ ∃ err ∈ s.errors, t.Under id err.node

/-- The clause of a node that is done and whose parent is not is there to be taken. -/
theorem Tabled.takes {e : Expr Value} (h : Tabled c (Tree.ofExpr e) k s) {id : Nat}
    (inside : id < k)
    (waits : ∀ parent : Nat, (Tree.ofExpr e).parent? id = some parent → k ≤ parent) :
    Takes (Tree.ofExpr e) ((Tree.ofExpr e).operandsUpTo k) s id := by
  obtain ⟨clause, found, sound⟩ := h.kept id inside waits
  refine ⟨h.size.symm ▸ inside, ?_, ?_⟩
  · rw [Tree.mem_operandsUpTo]
    rintro ⟨parent, below, link⟩
    exact Nat.not_lt.2 (waits parent link) below
  · have failed : clause = none ↔ c.FailsBelow (Tree.ofExpr e) id := by
      cases clause <;> simpa using sound
    rw [fst_take, found, Option.join_some, failed]
    constructor
    · rintro ⟨leaf, cause, under, failed⟩
      exact ⟨⟨leaf, cause⟩, (h.errors _).2 ⟨Nat.lt_of_le_of_lt under.le inside, failed⟩, under⟩
    · rintro ⟨err, recorded, under⟩
      exact ⟨err.node, err.cause, under, ((h.errors err).1 recorded).2⟩

end Emission

/-! ## Whole compilations -/

namespace Compiler

/-- Which nodes are in document context while a tree is compiled. -/
def scope (c : Compiler) (t : Tree) : Array Bool := Context.scope t (Context.mark t c.schema t.root)

/-- The emission after the first `k` nodes. -/
def emitUpTo (c : Compiler) (t : Tree) (k : Nat) : Emission :=
  (List.range k).foldl (Emission.step t (Emission.visitor c.schema c.dialect (c.scope t))) .empty

theorem emitUpTo_succ (c : Compiler) (t : Tree) (k : Nat) :
    c.emitUpTo t (k + 1) =
      Emission.step t (Emission.visitor c.schema c.dialect (c.scope t)) (c.emitUpTo t k) k := by
  rw [emitUpTo, List.range_succ, List.foldl_append]
  rfl

/-- A node without operands is a leaf, and it is known whether it is in document context. -/
theorem leaf_of_childless (c : Compiler) (e : Expr Value) {k : Nat}
    (inside : k < (Tree.ofExpr e).count) (childless : (Tree.ofExpr e).children? k = none) :
    ∃ leaf, (Tree.ofExpr e).leaf? c.schema k = some leaf ∧
      (c.scope (Tree.ofExpr e))[k]? = some leaf.inContext := by
  have known := Context.scope_ofExpr c.schema e (Tree.ofExpr_count e ▸ inside)
  obtain ⟨start, above, part, holds, rfl⟩ := Tree.ofExpr_part inside
  cases part with
  | binary op l r => cases childless.symm.trans holds.children?
  | _ => exact ⟨_, Tree.leaf?_of_node holds.node?, known⟩

/-- **The table is in order after every node.** -/
theorem tabled_emitUpTo (c : Compiler) (e : Expr Value) {k : Nat}
    (inside : k ≤ (Tree.ofExpr e).count) :
    Emission.Tabled c (Tree.ofExpr e) k (c.emitUpTo (Tree.ofExpr e) k) := by
  induction k with
  | zero => exact Emission.tabled_empty c _
  | succ k ih =>
    have h := ih (Nat.le_of_succ_le inside)
    rw [emitUpTo_succ]
    cases children : (Tree.ofExpr e).children? k with
    | none =>
      obtain ⟨leaf, found, known⟩ := c.leaf_of_childless e inside children
      exact h.leaf found known
    | some operands =>
      obtain ⟨op, node⟩ := Tree.children?_eq_some_iff.1 children
      exact h.operator node

/-- How a compilation goes through its table. -/
structure TakesOnce (c : Compiler) (t : Tree) : Prop where
  table : ∀ k ≤ t.count, Emission.Tabled c t k (c.emitUpTo t k)
  /-- A leaf takes nothing. -/
  leaf : ∀ k < t.count, t.children? k = none →
    ∃ clause, (c.emitUpTo t (k + 1)).clauses = (c.emitUpTo t k).clauses.push clause
  /-- An operator takes the clause of its left operand, which no node took before. -/
  left : ∀ k l r, t.children? k = some (l, r) →
    (c.emitUpTo t k).Takes t (t.operandsUpTo k) l
  /-- Then it takes that of its right operand. -/
  right : ∀ k l r, t.children? k = some (l, r) →
    ((c.emitUpTo t k).take l).2.Takes t (t.operandsUpTo k ++ [l]) r
  /-- What both leave behind is what the next node finds. -/
  operator : ∀ k l r, t.children? k = some (l, r) →
    ∃ clause, (c.emitUpTo t (k + 1)).clauses =
      (((c.emitUpTo t k).take l).2.take r).2.clauses.push clause
  /-- At the end the clause of the root is taken, which no operator took. -/
  root : (c.emitUpTo t t.count).Takes t (t.operandsUpTo t.count) t.root
  finish : c.compile t = (c.emitUpTo t t.count).finish c.dialect t.root
  /-- Every constant finds out whether it is in document context. -/
  constant : ∀ k v, t.node? k = some (.literal v) → k < (c.scope t).size

/-- **Every clause that a compilation takes is in the table and has not been taken before**, and if
there is none, an error recorded below says why. After each node the places of those whose parents
are done are empty, and any other place has a clause exactly if nothing below it fails. -/
theorem compile_takes (c : Compiler) (e : Expr Value) : c.TakesOnce (Tree.ofExpr e) := by
  have up := Tree.ofExpr_upward e
  have operand {id k : Nat} (link : (Tree.ofExpr e).parent? id = some k) :
      (c.emitUpTo (Tree.ofExpr e) k).Takes (Tree.ofExpr e) ((Tree.ofExpr e).operandsUpTo k) id := by
    obtain ⟨before, inside⟩ := up id k link
    refine (c.tabled_emitUpTo e (Nat.le_of_lt inside)).takes before fun parent link' => ?_
    rw [link, Option.some.injEq] at link'
    exact Nat.le_of_eq link'
  refine ⟨fun k => c.tabled_emitUpTo e, ?_, ?_, ?_, ?_, ?_, rfl, ?_⟩
  · intro k inside childless
    obtain ⟨leaf, found, known⟩ := c.leaf_of_childless e inside childless
    obtain ⟨clause, bindings, done, -⟩ := Emission.step_leaf found known (c.emitUpTo _ k)
    rw [emitUpTo_succ, done]
    exact ⟨clause, rfl⟩
  · intro k l r children
    exact operand (Tree.ofExpr_children children).1
  · intro k l r children
    obtain ⟨linkLeft, linkRight, apart⟩ := Tree.ofExpr_children children
    obtain ⟨inside, first, explained⟩ := operand linkRight
    refine ⟨by simpa using inside, ?_, ?_⟩
    · simpa [first] using Nat.ne_of_gt apart
    · rw [Emission.fst_take_take (Nat.ne_of_lt apart), explained, Emission.errors_take]
  · intro k l r children
    obtain ⟨op, node⟩ := Tree.children?_eq_some_iff.1 children
    rw [emitUpTo_succ, Emission.step_operator node]
    exact ⟨_, rfl⟩
  · obtain ⟨inside, alone⟩ := Tree.ofExpr_root_iff.2 (rfl : (Tree.ofExpr e).root = _)
    refine (c.tabled_emitUpTo e (Nat.le_refl _)).takes inside fun parent link => ?_
    cases alone.symm.trans link
  · intro k v node
    rw [scope, (Context.scope_scanned up _).size]
    exact Tree.node?_lt_count node

/-- A parameter beside an equality. When their conjunction comes to its operands, the place of the
parameter is empty because it failed, and that of the column because the equality took it. -/
theorem compile_takes_beside_failure :
    let c := Compiler.default
    let t := Tree.ofExpr (.binary .and .parameter
      (.binary .equals (.field "ID") (.literal (.bool true))))
    let s := c.emitUpTo t 4
    t.children? 4 = some (0, 3) ∧ s.clauses[1]? = some none ∧ (s.take 0).1 = none ∧
      ∃ err ∈ s.errors, t.Under 0 err.node := by
  intro c t s
  have takes : c.TakesOnce t := compile_takes c _
  have children : t.children? 4 = some (0, 3) := by decide +kernel
  have table := takes.table 4 (by decide +kernel)
  have failed : ∃ err ∈ s.errors, t.Under 0 err.node := by
    have node : t.node? 0 = some .parameter := rfl
    exact ⟨⟨0, .unsupportedExpression⟩, (table.errors _).2 ⟨by decide, .parameter node⟩,
      .self (Tree.node?_lt_count node)⟩
  refine ⟨children, ?_, (takes.left 4 0 3 children).explained.2 failed, failed⟩
  exact table.taken 1 (by decide) ⟨3, by decide +kernel, by decide⟩

end Compiler

end RowFilter
