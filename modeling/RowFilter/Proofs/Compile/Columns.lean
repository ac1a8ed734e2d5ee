import Mathlib.Data.List.Forall2
import RowFilter.Proofs.Compile.Emission
import RowFilter.Proofs.Compile.Failures
import RowFilter.Proofs.Context.Paths

/-! A field that becomes a column is no longer marked, and neither are the equalities that were
marked because of it; constants leave document context with them. All of this only ever takes
reasons to fail away, so that declaring more columns never breaks a filter. -/

namespace RowFilter

variable {s s' : Schema}

section
variable (more : ∀ name ∈ s.columns, name ∈ s'.columns)
include more

theorem Schema.isDocumentField_fewer {name : String} (h : s'.isDocumentField name = true) :
    s.isDocumentField name = true := by
  rw [isDocumentField_iff] at h ⊢
  exact fun column => h (more name column)

/-- Whatever reaches a field of the document did so before. -/
theorem Tree.Reaches.fewer {t : Tree} {id : Nat} (h : t.Reaches s' id) : t.Reaches s id := by
  induction h with
  | field node document => exact .field node (Schema.isDocumentField_fewer more document)
  | left node _ ih => exact .left node ih
  | right node _ ih => exact .right node ih

theorem Expr.isMarked_fewer {e : Expr Value} (h : e.isMarked s' = true) : e.isMarked s = true := by
  induction e with
  | field name => exact Schema.isDocumentField_fewer more h
  | binary op l r hl hr =>
    cases op with
    | equals =>
      rw [isMarked, Bool.or_eq_true] at h ⊢
      exact h.imp hl hr
    | _ => cases h
  | _ => cases h

theorem Expr.within_fewer {inContext inContext' : Bool} (outer : inContext' = true → inContext = true)
    {op : BinaryOp} {l r : Expr Value} (h : within s' inContext' op l r = true) :
    within s inContext op l r = true := by
  rw [within, Bool.or_eq_true] at h ⊢
  exact h.imp outer (isMarked_fewer more)

end

/-! ## Leaves -/

/-- The same leaf, which may have left document context. -/
structure Leaf.Freed (leaf leaf' : Leaf) : Prop where
  place : leaf'.place = leaf.place
  atom : leaf'.atom = leaf.atom
  context : leaf'.inContext = true → leaf.inContext = true

/-- **With more columns an expression has the same leaves**, some of them out of document context. -/
theorem Expr.freed_leaves (more : ∀ name ∈ s.columns, name ∈ s'.columns) (e : Expr Value)
    {inContext inContext' : Bool} (outer : inContext' = true → inContext = true) (start : Nat) :
    List.Forall₂ Leaf.Freed (e.leaves s inContext start) (e.leaves s' inContext' start) := by
  induction e generalizing inContext inContext' start with
  | binary op l r hl hr =>
    have inner : within s' inContext' op l r = true → within s inContext op l r = true :=
      within_fewer more outer
    exact List.rel_append (hl inner start) (hr inner (start + l.size))
  | _ => exact .cons ⟨rfl, rfl, outer⟩ .nil

section
variable {c c' : Compiler} (more : ∀ name ∈ c.schema.columns, name ∈ c'.schema.columns)
  (dialect : c'.dialect = c.dialect)
include more dialect

theorem Leaf.Freed.fault? {leaf leaf' : Leaf} (h : leaf.Freed leaf') {cause : CompileError.Cause}
    (fault : leaf'.fault? c' = some cause) : leaf.fault? c = some cause := by
  obtain ⟨place, inContext, atom⟩ := leaf
  obtain ⟨place', inContext', atom'⟩ := leaf'
  obtain ⟨rfl, rfl, context⟩ := h
  cases atom' with
  | field name =>
    rw [fault?_field] at fault ⊢
    exact ⟨Schema.isDocumentField_fewer more fault.1, dialect ▸ fault.2⟩
  | parameter => exact fault
  | literal v =>
    rw [fault?_literal] at fault ⊢
    exact fault.imp_left (Or.imp_right (And.imp_left context))

theorem Leaf.Freed.error? {leaf leaf' : Leaf} (h : leaf.Freed leaf') {err : CompileError}
    (failed : leaf'.error? c' = some err) : leaf.error? c = some err := by
  obtain ⟨cause, fault, rfl⟩ := Option.map_eq_some_iff.1 failed
  rw [Leaf.error?, h.fault? more dialect fault, h.place]
  rfl

/-- The errors of the freed leaves are among those of the leaves. -/
theorem Leaf.filterMap_error?_sublist {leaves leaves' : List Leaf}
    (h : List.Forall₂ Leaf.Freed leaves leaves') :
    (leaves'.filterMap (Leaf.error? c')).Sublist (leaves.filterMap (Leaf.error? c)) := by
  induction h with
  | nil => exact .slnil
  | @cons leaf leaf' _ _ head _ ih =>
    cases failed : leaf'.error? c' with
    | some err =>
      rw [List.filterMap_cons_some failed,
        List.filterMap_cons_some (head.error? more dialect failed)]
      exact ih.cons_cons err
    | none =>
      rw [List.filterMap_cons_none failed, List.filterMap_cons]
      split
      · exact ih
      · exact ih.cons _

/-- **With more columns the errors are among those there were.** -/
theorem Expr.errors_fewer (e : Expr Value) {inContext inContext' : Bool}
    (outer : inContext' = true → inContext = true) (start : Nat) :
    (e.errors c' inContext' start).Sublist (e.errors c inContext start) :=
  Leaf.filterMap_error?_sublist more dialect (e.freed_leaves more outer start)

end

/-- Where nothing fails, a value is bound for every constant. -/
theorem Expr.length_parameters_of_errors {c : Compiler} {e : Expr Value} {inContext : Bool}
    {start : Nat} (ok : e.errors c inContext start = []) :
    (e.parameters c.schema inContext).length = e.literals.length := by
  induction e generalizing inContext start with
  | binary op l r hl hr =>
    rw [errors_binary, List.append_eq_nil_iff] at ok
    rw [parameters_binary, literals, List.length_append, List.length_append, hl ok.1, hr ok.2]
  | literal v =>
    rw [errors_literal] at ok
    rw [parameters_literal]
    cases bound : Compiler.bound? inContext v with
    | none => simp [bound] at ok
    | some w => rfl
  | _ => rfl

/-! ## Filters -/

namespace Compiler

theorem length_parameters_of_errors {c : Compiler} {e : Expr Value}
    (ok : (c.compile (Tree.ofExpr e)).errors = []) :
    (c.compile (Tree.ofExpr e)).parameters.length = e.literals.length := by
  rw [compile_ofExpr] at ok ⊢
  exact Expr.length_parameters_of_errors ok

/-- **Declaring more columns never breaks a filter.** With more columns no other nodes are marked and
no others are in document context than before, whatever else the schema says; the errors are among
those there were; and what compiled before compiles, with as many values. -/
theorem compile_more_columns (valid : s.Valid) (valid' : s'.Valid)
    (more : ∀ name ∈ s.columns, name ∈ s'.columns) (d : Dialect) (e : Expr Value) :
    let t := Tree.ofExpr e
    let before := (Compiler.mk s valid d).compile t
    let after := (Compiler.mk s' valid' d).compile t
    (∀ start id : Nat, (Context.mark t s' start).isMarked id Context.key = true →
        (Context.mark t s start).isMarked id Context.key = true) ∧
      (∀ id : Nat, (Context.scope t (Context.mark t s' t.root))[id]? = some true →
        (Context.scope t (Context.mark t s t.root))[id]? = some true) ∧
      after.errors.Sublist before.errors ∧
      (before.errors = [] → after.errors = [] ∧ after.clause.isSome = true ∧
        after.parameters.length = before.parameters.length) := by
  intro t before after
  have fewer : after.errors.Sublist before.errors := by
    simp only [after, before, t, compile_ofExpr]
    apply Expr.errors_fewer
    · exact more
    · rfl
    · exact id
  refine ⟨fun start id marked => ?_, fun id inContext => ?_, fewer, fun ok => ?_⟩
  · rw [Annotations.isMarked_iff, Context.get?_mark_iff] at marked ⊢
    obtain ⟨same, value, under, reached⟩ := marked
    exact ⟨same, value, under, reached.fewer more⟩
  · rw [Context.scope_eq_true_iff] at inContext ⊢
    obtain ⟨top, above, reached⟩ := inContext
    exact ⟨top, above, reached.fewer more⟩
  · have ok' : after.errors = [] := List.sublist_nil.1 (ok ▸ fewer)
    refine ⟨ok', (clause_isSome_iff _ e).2 ok', ?_⟩
    rw [length_parameters_of_errors ok', length_parameters_of_errors ok]

theorem compile_more_columns_unmarked :
    let c : Compiler := ⟨.default, Schema.default_valid, .postgres⟩
    let c' : Compiler := ⟨{ c.schema with columns := .ofList ["ID", "Type", "Version", "title"] },
      by decide +kernel, .postgres⟩
    let e : Expr Value := .binary .equals
      (.binary .equals (.field "title") (.literal (.string "x"))) (.literal (.bool true))
    let before := c.compile (Tree.ofExpr e)
    let after := c'.compile (Tree.ofExpr e)
    (∀ name ∈ c.schema.columns, name ∈ c'.schema.columns) ∧
      before.clause = some "((Fields->'title' = $1::jsonb) = $2::jsonb)" ∧
      after.clause = some "((title = $1) = $2)" ∧ before.errors = [] ∧ after.errors = [] ∧
      after.parameters.length = before.parameters.length := by
  intro c c' e before after
  have more : ∀ name ∈ c.schema.columns, name ∈ c'.schema.columns := by
    intro name column
    rw [Columns.mem_ofList]
    exact List.mem_append_left ["title"] (Columns.mem_ofList.1 column)
  have ok : before.errors = [] := by
    simp only [before, compile_ofExpr]
    exact List.isEmpty_iff.1 (by decide +kernel)
  obtain ⟨-, -, -, compiles⟩ := compile_more_columns c.valid c'.valid more .postgres e
  obtain ⟨ok', -, length⟩ := compiles ok
  refine ⟨more, ?_, ?_, ok, ok', length⟩
  · simp only [before, compile_ofExpr]
    decide +kernel
  · simp only [after, compile_ofExpr]
    decide +kernel

end Compiler

end RowFilter
