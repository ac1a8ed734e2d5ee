import RowFilter.Proofs.Compile.Agreement
import RowFilter.Proofs.Compile.Binding
import RowFilter.Proofs.Sql.Rewriting

/-!
# The filter of an operator

The operands of an operator are compiled as if each stood alone, unless the
operator is an equality that compares with a part of the document. What the right
one adds only comes later: its nodes after those of the left one, and the numbers
of its values after theirs. An equality with a part of the document puts all
constants below it in document context.

* `Context.rootMarked`: whether the root of a tree is marked;
* `Expr.errors_shift`, `Expr.sql?_shift`: an expression that comes later;
* `Compiler.compile_beside`: operands that are compiled as if each stood alone;
* `Compiler.compile_compared`: operands in document context;
* `Compiler.compile_binary`: the filter of an operator from those of its operands.
-/

namespace RowFilter

/-- The same error `n` nodes further on. -/
def CompileError.shift (n : Nat) (err : CompileError) : CompileError := ⟨err.node + n, err.cause⟩

def Context.rootMarked (s : Schema) (t : Tree) : Bool :=
  (mark t s t.root).isMarked t.root key

theorem Context.rootMarked_iff {s : Schema} {e : Expr Value} :
    rootMarked s (Tree.ofExpr e) = true ↔ e.isMarked s = true := by
  rw [rootMarked, isMarked_ofExpr, Tree.ofExpr_root, Tree.reaches_iff_isMarked (Tree.ofExpr_holds e)]

theorem Leaf.error?_shift (c : Compiler) (n : Nat) (leaf : Leaf) :
    (leaf.shift n).error? c = (leaf.error? c).map (CompileError.shift n) := by
  have fault : (leaf.shift n).fault? c = leaf.fault? c := rfl
  rw [error?, error?, fault, Option.map_map]
  rfl

theorem Compiler.joined_shift (c : Compiler) (op : BinaryOp) (x y : Sql) (n : Nat) :
    c.joined op (x.shift n) (y.shift n) = (c.joined op x y).shift n := by
  cases op <;> rfl

namespace Expr

/-- An operator that stands outside of document context brings its operands into it exactly if it is
an equality with something marked. -/
theorem within_iff {s : Schema} {op : BinaryOp} {l r : Expr Value} :
    within s false op l r = true ↔
      op = .equals ∧ (l.isMarked s = true ∨ r.isMarked s = true) := by
  cases op <;> simp [within, isMarked]

/-! ## Expressions that come later -/

theorem errors_shift (c : Compiler) (inContext : Bool) (start n : Nat) (e : Expr Value) :
    e.errors c inContext (start + n) = (e.errors c inContext start).map (CompileError.shift n) := by
  rw [errors, errors, leaves_shift, List.filterMap_map, List.map_filterMap]
  congr 1
  funext leaf
  exact Leaf.error?_shift c n leaf

theorem sql?_shift (c : Compiler) (inContext : Bool) (bound n : Nat) (e : Expr Value) :
    e.sql? c inContext (bound + n) = (e.sql? c inContext bound).map (Sql.shift n) := by
  induction e generalizing inContext bound with
  | field name =>
    rw [sql?, sql?]
    cases clause : c.fieldClause name with
    | error cause => rfl
    | ok q => rcases Compiler.fieldClause_ok clause with ⟨-, -, rfl⟩ | ⟨-, rfl⟩ <;> rfl
  | parameter => rfl
  | literal v =>
    rw [sql?, sql?]
    cases Compiler.bound? inContext v <;> rfl
  | binary op l r hl hr =>
    simp only [sql?]
    rw [hl, Nat.add_right_comm, hr]
    rcases l.sql? c _ _ with _ | x
    · rfl
    rcases r.sql? c _ _ with _ | y
    · rfl
    exact congrArg some (c.joined_shift op x y n)

/-! ## Expressions in document context -/

theorem inContext_of_leaves {s : Schema} {start : Nat} {e : Expr Value} {leaf : Leaf}
    (mem : leaf ∈ e.leaves s true start) : leaf.inContext = true := by
  induction e generalizing start with
  | binary op l r hl hr =>
    rcases List.mem_append.1 mem with left | right
    · exact hl left
    · exact hr right
  | _ =>
    obtain rfl := List.mem_singleton.1 mem
    rfl

/-- In document context the supported constants are bound by their text there. -/
theorem map_some_parameters (s : Schema) (e : Expr Value) :
    (e.parameters s true).map some =
      (e.literals.filter fun v => v.isPrimitive && !v.isNonFinite).map fun v =>
        v.documentText?.map .string := by
  rw [parameters, Leaf.map_some_filterMap_bound?]
  generalize 0 = start
  induction e generalizing start with
  | binary op l r hl hr =>
    have inner : within s true op l r = true := rfl
    rw [leaves, inner, literals, List.filter_append, List.map_append, hl, hr, List.filter_append,
      List.map_append]
  | literal v =>
    cases supported : (v.isPrimitive && !v.isNonFinite) <;>
      simp [leaves, literals, Leaf.isSupported, Leaf.asBound?, supported]
  | _ => rfl

end Expr

namespace Compiler

variable (c : Compiler) {op : BinaryOp} {a b : Expr Value}

/-- **Operands that bring no document context with them are compiled as if each stood alone.** -/
theorem compile_beside (apart : Expr.within c.schema false op a b = false) :
    let f := c.compile (Tree.ofExpr (.binary op a b))
    let left := c.compile (Tree.ofExpr a)
    let right := c.compile (Tree.ofExpr b)
    f.parameters = left.parameters ++ right.parameters ∧
      f.errors = left.errors ++ right.errors.map (CompileError.shift (Tree.ofExpr a).count) ∧
      f.clause = left.clause.bind fun x => right.clause.map fun y =>
        String.ofList (c.template op x.toList (c.dialect.raise left.parameters.length y.toList)) := by
  simp only [compile_ofExpr, Expr.parameters_binary, Expr.errors_binary, Expr.sql?, apart,
    Tree.ofExpr_count]
  refine ⟨trivial, ?_, ?_⟩
  · rw [Expr.errors_shift]
  · rw [Expr.sql?_shift]
    cases left : a.sql? c false 0 with
    | none => rfl
    | some x =>
      cases right : b.sql? c false 0 with
      | none => rfl
      | some y =>
        have raised := Sql.toList_text_shift (Expr.safe_of_sql? c right)
          (a.parameters c.schema false).length
        simp only [Option.map_some, Option.bind_some, ← raised, ← text_joined]

/-- **An equality with a part of the document puts all constants below it in document context.** -/
theorem compile_compared (compared : Expr.within c.schema false op a b = true) :
    let f := c.compile (Tree.ofExpr (.binary op a b))
    f.parameters.map some =
        ((a.literals ++ b.literals).filter fun v => v.isPrimitive && !v.isNonFinite).map (fun v =>
          v.documentText?.map .string) ∧
      ∀ text, f.clause = some text → (Sql.references c.dialect false text.toList).map Prod.snd =
        List.replicate f.parameters.length true := by
  intro f
  have parameters : f.parameters = a.parameters c.schema true ++ b.parameters c.schema true := by
    simp only [f, compile_ofExpr, Expr.parameters_binary, compared]
  constructor
  · rw [parameters, List.map_append, Expr.map_some_parameters, Expr.map_some_parameters,
      ← List.map_append, ← List.filter_append]
  · intro text clause
    obtain ⟨q, compiled, written⟩ := clause_eq_some clause
    have casts : (Sql.references c.dialect false text.toList).map Prod.snd =
        (q.fragments.filterMap Fragment.reference?).map Prod.snd := by
      rw [references_of_clause compiled written, List.map_map]
      rfl
    rw [casts, List.eq_replicate_iff]
    constructor
    · have positions := congrArg List.length (Expr.positions_of_sql? c compiled)
      rw [List.length_map, List.length_range', Expr.parameters_binary, compared] at positions
      rw [List.length_map, parameters, positions]
    · intro flag mem
      rw [Expr.casts_of_sql? c 0 compiled] at mem
      obtain ⟨leaf, is_literal, rfl⟩ := List.mem_map.1 mem
      have is_leaf := (List.mem_filter.1 is_literal).1
      rw [Expr.leaves, compared] at is_leaf
      rcases List.mem_append.1 is_leaf with left | right
      · exact Expr.inContext_of_leaves left
      · exact Expr.inContext_of_leaves right

/-- **The filter of an operator comes from those of its operands.** Unless it is an equality with
something marked, what the two bind and what fails in them is put together, the nodes of the right
one counted on, and there is a clause exactly if both have one: the text of the operator around
theirs, the numbers in the right one raised past the values of the left. An equality with something
marked binds every supported constant below it by its text in a document, and casts every reference
to one. -/
theorem compile_binary (c : Compiler) (op : BinaryOp) (a b : Expr Value) :
    let f := c.compile (Tree.ofExpr (.binary op a b))
    let left := c.compile (Tree.ofExpr a)
    let right := c.compile (Tree.ofExpr b)
    let compares := op = .equals ∧ (Context.rootMarked c.schema (Tree.ofExpr a) = true ∨
      Context.rootMarked c.schema (Tree.ofExpr b) = true)
    (¬compares →
      f.parameters = left.parameters ++ right.parameters ∧
        f.errors = left.errors ++ right.errors.map (CompileError.shift (Tree.ofExpr a).count) ∧
        f.clause = left.clause.bind fun x => right.clause.map fun y => String.ofList
          (c.template op x.toList (c.dialect.raise left.parameters.length y.toList))) ∧
    (compares →
      f.parameters.map some =
          ((a.literals ++ b.literals).filter fun v => v.isPrimitive && !v.isNonFinite).map (fun v =>
            v.documentText?.map .string) ∧
        ∀ text, f.clause = some text →
          (Sql.references c.dialect false text.toList).map Prod.snd =
            List.replicate f.parameters.length true) := by
  intro f left right compares
  have context : compares ↔ Expr.within c.schema false op a b = true := by
    rw [Expr.within_iff, ← Context.rootMarked_iff, ← Context.rootMarked_iff]
  constructor
  · intro apart
    exact c.compile_beside (Bool.eq_false_iff.2 fun within => apart (context.2 within))
  · intro compared
    exact c.compile_compared (context.1 compared)

theorem compile_binary_numbered :
    let c : Compiler := ⟨.default, Schema.default_valid, .postgres⟩
    let a : Expr Value := .binary .equals (.field "a$1") (.literal (.string "x"))
    let b : Expr Value := .binary .equals (.field "ID") (.literal (.int32 5))
    let left := c.compile (Tree.ofExpr a)
    let right := c.compile (Tree.ofExpr b)
    ¬(BinaryOp.and = .equals ∧ (Context.rootMarked c.schema (Tree.ofExpr a) = true ∨
        Context.rootMarked c.schema (Tree.ofExpr b) = true)) ∧
      (c.compile (Tree.ofExpr (.binary .and a b))).clause =
        (left.clause.bind fun x => right.clause.map fun y => String.ofList
          (c.template .and x.toList (c.dialect.raise left.parameters.length y.toList))) ∧
      Context.rootMarked c.schema (Tree.ofExpr a) = true ∧
      (c.compile (Tree.ofExpr (.binary .equals a b))).parameters.map some =
        [some (.string "\"x\""), some (.string "5")] := by
  intro c a b left right
  have apart : ¬(BinaryOp.and = .equals ∧ (Context.rootMarked c.schema (Tree.ofExpr a) = true ∨
      Context.rootMarked c.schema (Tree.ofExpr b) = true)) := fun compares => nomatch compares.1
  have marked : Context.rootMarked c.schema (Tree.ofExpr a) = true :=
    Context.rootMarked_iff.2 (by decide +kernel)
  have compared := (compile_binary c .equals a b).2 ⟨rfl, .inl marked⟩
  exact ⟨apart, ((compile_binary c .and a b).1 apart).2.2, marked, compared.1⟩

end Compiler

end RowFilter
