import RowFilter.Proofs.Compile.Failures
import RowFilter.Proofs.Sql.Rewriting

/-! The dialect decides how a clause refers to bound values, and whether a question mark in a name
is an error. It decides nothing else: what is bound, what else fails and how the clause is built are
the same in both dialects. -/

namespace RowFilter

/-- The node fails for nothing but a question mark in its name. -/
def CompileError.Cause.isPlaceholder : CompileError.Cause → Bool
  | .placeholderInFieldName _ => true
  | _ => false

def Compiler.under (c : Compiler) (d : Dialect) : Compiler := ⟨c.schema, c.valid, d⟩

/-- With numbered references a question mark in a name does no harm. -/
theorem Emission.fieldFault?_postgres (name : String) :
    fieldFault? .postgres name =
      (fieldFault? .questionMark name).filter fun cause => !cause.isPlaceholder := by
  unfold fieldFault?
  by_cases quote : name.toList.contains '\'' = true
  · rw [if_pos quote, if_pos quote]
    rfl
  · rw [if_neg quote, if_neg quote]
    cases name.toList.contains '?' <;> rfl

theorem Leaf.fault?_postgres (c : Compiler) (leaf : Leaf) :
    leaf.fault? (c.under .postgres) =
      (leaf.fault? (c.under .questionMark)).filter fun cause => !cause.isPlaceholder := by
  rcases leaf with ⟨place, inContext, atom⟩
  cases atom with
  | field name =>
    apply Option.ext
    intro cause
    have fault : Emission.fieldFault? .postgres name = some cause ↔
        Emission.fieldFault? .questionMark name = some cause ∧ (!cause.isPlaceholder) = true := by
      rw [Emission.fieldFault?_postgres, Option.filter_eq_some_iff]
    rw [fault?_field, Option.filter_eq_some_iff, fault?_field, and_assoc]
    exact and_congr_right fun _ => fault
  | parameter => rfl
  | literal v =>
    simp only [fault?]
    cases Compiler.bound? inContext v <;> rfl

theorem Leaf.error?_postgres (c : Compiler) (leaf : Leaf) :
    leaf.error? (c.under .postgres) =
      (leaf.error? (c.under .questionMark)).filter fun err => !err.cause.isPlaceholder := by
  rw [error?, error?, fault?_postgres]
  rcases leaf.fault? (c.under .questionMark) with _ | cause
  · rfl
  · cases cause <;> rfl

namespace Expr

variable (c : Compiler) {e : Expr Value} {inContext : Bool} {bound : Nat} {q : Sql}

/-- **Numbered references take away the errors about question marks in names**, and no others. -/
theorem errors_postgres (e : Expr Value) (inContext : Bool) (start : Nat) :
    e.errors (c.under .postgres) inContext start =
      (e.errors (c.under .questionMark) inContext start).filter fun err =>
        !err.cause.isPlaceholder := by
  rw [errors, errors, List.filter_filterMap]
  congr 1
  funext leaf
  exact Leaf.error?_postgres c leaf

/-- **A clause is built in the same way in both dialects.** -/
theorem sql?_postgres (h : e.sql? (c.under .questionMark) inContext bound = some q) :
    e.sql? (c.under .postgres) inContext bound = some q := by
  induction e generalizing inContext bound q with
  | field name =>
    rcases Compiler.fieldClause_ok (sql?_field h) with ⟨document, unfaulted, rfl⟩ | ⟨column, rfl⟩
    · have allowed : Emission.fieldFault? .postgres name = none := by
        have unfaulted : Emission.fieldFault? .questionMark name = none := unfaulted
        rw [Emission.fieldFault?_postgres, unfaulted]
        rfl
      have document : c.schema.isDocumentField name = true := document
      simp [sql?, Compiler.fieldClause, Compiler.under, document, allowed, Except.toOption]
    · have column : c.schema.isDocumentField name = false := column
      simp [sql?, Compiler.fieldClause, Compiler.under, column, Except.toOption]
  | parameter => cases h
  | literal v => exact h
  | binary op l r hl hr =>
    obtain ⟨x, y, left, right, rfl⟩ := sql?_binary h
    simp only [sql?, Option.bind_eq_some_iff, Option.map_eq_some_iff]
    exact ⟨x, hl left, y, hr right, rfl⟩

end Expr

namespace Compiler

/-- **The dialect decides how values are referred to, and nothing else.** Whatever fails, the same
values are bound in both dialects. With numbered references the errors are those with question marks
less the ones about question marks in names; and if a filter compiles with question marks, then its
clause is the numbered one with a question mark in place of every number. -/
theorem compile_dialects (c : Compiler) (e : Expr Value) :
    let t := Tree.ofExpr e
    let anonymous := (c.under .questionMark).compile t
    let numbered := (c.under .postgres).compile t
    anonymous.parameters = numbered.parameters ∧
      numbered.errors = anonymous.errors.filter (fun err => !err.cause.isPlaceholder) ∧
      (anonymous.errors = [] → numbered.errors = [] ∧ ∃ text, numbered.clause = some text ∧
        anonymous.clause =
          some (String.ofList (Sql.mapReferences (fun _ => ['?']) false text.toList))) := by
  intro t anonymous numbered
  have errors : numbered.errors =
      anonymous.errors.filter fun err => !err.cause.isPlaceholder := by
    simp only [numbered, anonymous, t, compile_ofExpr]
    exact Expr.errors_postgres c e false 0
  refine ⟨?_, errors, fun ok => ?_⟩
  · simp only [numbered, anonymous, t, compile_ofExpr]
    rfl
  · have none : numbered.errors = [] := by
      rw [errors, ok]
      rfl
    simp only [anonymous, t, compile_ofExpr] at ok
    obtain ⟨q, compiled⟩ := Option.isSome_iff_exists.1 ((Expr.sql?_isSome_iff _ false 0 0 e).2 ok)
    have compiled' := Expr.sql?_postgres c compiled
    have safe := Expr.safe_of_sql? (c.under .postgres) compiled'
    refine ⟨none, q.text .postgres, ?_, ?_⟩
    · simp only [numbered, t, compile_ofExpr, compiled', Option.map_some]
      rfl
    · rw [← Sql.text_questionMark safe]
      simp only [anonymous, t, compile_ofExpr, compiled, Option.map_some]
      rfl

theorem compile_dialects_quoted :
    let e : Expr Value := .binary .and
      (.binary .equals (.field "a$1") (.literal (.bool true)))
      (.binary .equals (.field "ID") (.literal (.string "$2")))
    let anonymous := (default.under .questionMark).compile (Tree.ofExpr e)
    let numbered := (default.under .postgres).compile (Tree.ofExpr e)
    anonymous.errors = [] ∧ numbered.errors = [] ∧ ∃ text, numbered.clause = some text ∧
      anonymous.clause =
        some (String.ofList (Sql.mapReferences (fun _ => ['?']) false text.toList)) := by
  intro e anonymous numbered
  have ok : anonymous.errors = [] := by
    simp only [anonymous, compile_ofExpr]
    exact List.isEmpty_iff.1 (by decide +kernel)
  exact ⟨ok, (compile_dialects default e).2.2 ok⟩

end Compiler

end RowFilter
