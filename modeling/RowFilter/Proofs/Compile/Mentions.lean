import RowFilter.Proofs.Compile.Emission

namespace RowFilter

/-- Two schemas say the same about everything an expression mentions. -/
structure Expr.Agree (s s' : Schema) (e : Expr Value) : Prop where
  fields : ∀ name, .field name ∈ e.subexpressions →
    s.isDocumentField name = s'.isDocumentField name
  documentColumn : ∀ name, .field name ∈ e.subexpressions → s.isDocumentField name = true →
    s.documentColumn = s'.documentColumn
  textSearchConfig : ∀ l r, .binary .textMatch l r ∈ e.subexpressions →
    s.textSearchConfig = s'.textSearchConfig

namespace Expr.Agree

variable {s s' : Schema}

theorem part {whole e : Expr Value} (agree : whole.Agree s s')
    (inside : ∀ p ∈ e.subexpressions, p ∈ whole.subexpressions) : e.Agree s s' where
  fields name mem := agree.fields name (inside _ mem)
  documentColumn name mem := agree.documentColumn name (inside _ mem)
  textSearchConfig l r mem := agree.textSearchConfig l r (inside _ mem)

section
variable {op : BinaryOp} {l r : Expr Value} (agree : (Expr.binary op l r).Agree s s')
include agree

theorem left : l.Agree s s' := by
  apply agree.part
  intro p mem
  exact List.mem_append_left _ (List.mem_append_left _ mem)

theorem right : r.Agree s s' := by
  apply agree.part
  intro p mem
  exact List.mem_append_left _ (List.mem_append_right _ mem)

end

theorem isMarked {e : Expr Value} (agree : e.Agree s s') : e.isMarked s = e.isMarked s' := by
  induction e with
  | field name => exact agree.fields name (List.mem_singleton_self _)
  | binary op l r hl hr =>
    cases op with
    | equals => simp only [Expr.isMarked, hl agree.left, hr agree.right]
    | _ => rfl
  | _ => rfl

theorem within {op : BinaryOp} {l r : Expr Value} (agree : (Expr.binary op l r).Agree s s')
    (inContext : Bool) : Expr.within s inContext op l r = Expr.within s' inContext op l r := by
  simp only [Expr.within, agree.isMarked]

theorem leaves {e : Expr Value} (agree : e.Agree s s') (inContext : Bool) (start : Nat) :
    e.leaves s inContext start = e.leaves s' inContext start := by
  induction e generalizing inContext start with
  | binary op l r hl hr =>
    rw [Expr.leaves, Expr.leaves, agree.within, hl agree.left, hr agree.right]
  | _ => rfl

theorem parameters {e : Expr Value} (agree : e.Agree s s') (inContext : Bool) :
    e.parameters s inContext = e.parameters s' inContext := by
  rw [Expr.parameters, Expr.parameters, agree.leaves]

variable {c c' : Compiler}

theorem joined {op : BinaryOp} {l r : Expr Value}
    (agree : (Expr.binary op l r).Agree c.schema c'.schema) : c.joined op = c'.joined op := by
  cases op with
  | textMatch =>
    have mentioned : Expr.binary .textMatch l r ∈ (Expr.binary .textMatch l r).subexpressions :=
      List.mem_append_right _ (List.mem_singleton_self _)
    simp only [Compiler.joined, agree.textSearchConfig l r mentioned]
  | _ => rfl

section
variable (dialect : c.dialect = c'.dialect)
include dialect

theorem fieldClause {name : String} (agree : (Expr.field name).Agree c.schema c'.schema) :
    c.fieldClause name = c'.fieldClause name := by
  have mentioned : Expr.field name ∈ (Expr.field name : Expr Value).subexpressions :=
    List.mem_singleton_self _
  have field := agree.fields name mentioned
  unfold Compiler.fieldClause
  cases document : c.schema.isDocumentField name with
  | false => simp only [← field, document, Bool.false_eq_true, if_false]
  | true =>
    have column := agree.documentColumn name mentioned document
    rw [← field, document, dialect, column]

theorem errors {e : Expr Value} (agree : e.Agree c.schema c'.schema) (inContext : Bool)
    (start : Nat) : e.errors c inContext start = e.errors c' inContext start := by
  induction e generalizing inContext start with
  | field name => rw [Expr.errors_field, Expr.errors_field, agree.fieldClause dialect]
  | parameter => rfl
  | literal v => rw [Expr.errors_literal, Expr.errors_literal]
  | binary op l r hl hr =>
    rw [Expr.errors_binary, Expr.errors_binary, agree.within, hl agree.left, hr agree.right]

theorem sql? {e : Expr Value} (agree : e.Agree c.schema c'.schema) (inContext : Bool)
    (bound : Nat) : e.sql? c inContext bound = e.sql? c' inContext bound := by
  induction e generalizing inContext bound with
  | field name => rw [Expr.sql?, Expr.sql?, agree.fieldClause dialect]
  | binary op l r hl hr =>
    simp only [Expr.sql?, agree.within, agree.joined, hl agree.left, hr agree.right,
      agree.left.parameters]
  | _ => rfl

end

end Expr.Agree

namespace Compiler

/-- **A filter depends on its schema only through what its expression mentions.** Two schemas that
say the same about that give one filter: the same clause, values and errors. -/
theorem compile_of_agree {s s' : Schema} (valid : s.Valid) (valid' : s'.Valid) (d : Dialect)
    {e : Expr Value} (agree : e.Agree s s') :
    (Compiler.mk s valid d).compile (Tree.ofExpr e) =
      (Compiler.mk s' valid' d).compile (Tree.ofExpr e) := by
  let c : Compiler := ⟨s, valid, d⟩
  let c' : Compiler := ⟨s', valid', d⟩
  have dialect : c.dialect = c'.dialect := rfl
  have clause : e.sql? c false 0 = e.sql? c' false 0 := agree.sql? dialect false 0
  have errors : e.errors c false 0 = e.errors c' false 0 := agree.errors dialect false 0
  have values : e.parameters s false = e.parameters s' false := agree.parameters false
  rw [compile_ofExpr, compile_ofExpr]
  simp only [c, c'] at clause errors
  rw [clause, errors, values]

/-- Columns and configuration differ where the expression does not look. -/
theorem compile_of_agree_unmentioned :
    let s : Schema := .default
    let s' : Schema := ⟨.ofList ["Owner", "ID"], "Fields", "simple"⟩
    let e : Expr Value := .binary .and (.binary .equals (.field "ID") (.literal (.int64 7)))
      (.binary .equals (.field "title") .parameter)
    ∃ (valid : s.Valid) (valid' : s'.Valid), e.Agree s s' ∧
      s.columns ≠ s'.columns ∧ s.textSearchConfig ≠ s'.textSearchConfig ∧
      (Compiler.mk s valid .postgres).compile (Tree.ofExpr e) =
        (Compiler.mk s' valid' .postgres).compile (Tree.ofExpr e) := by
  intro s s' e
  have agree : e.Agree s s' := by
    constructor
    case fields =>
      intro name mem
      have named : name = "ID" ∨ name = "title" := by simpa [e, Expr.subexpressions] using mem
      rcases named with rfl | rfl <;> decide +kernel
    case documentColumn => exact fun _ _ _ => rfl
    case textSearchConfig =>
      intro l r mem
      simp [e, Expr.subexpressions] at mem
  have valid' : s'.Valid := by decide +kernel
  exact ⟨Schema.default_valid, valid', agree, by decide +kernel, by decide +kernel,
    compile_of_agree Schema.default_valid valid' .postgres agree⟩

end Compiler

end RowFilter
