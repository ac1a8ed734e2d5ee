import RowFilter.Proofs.Context.Scope

/-! What is bound and what fails in a compilation is decided leaf by leaf, by what the leaf holds
and whether it is in document context. Operators bind nothing and never fail by themselves. -/

namespace RowFilter

/-- What a leaf holds. -/
inductive Atom
  | field (name : String)
  | parameter
  | literal (value : Value)

/-- A leaf of an expression. -/
structure Leaf where
  place : NodeId
  inContext : Bool
  atom : Atom

namespace Compiler

/-- The clause of a field. -/
def fieldClause (c : Compiler) (name : String) : Except CompileError.Cause Sql :=
  if c.schema.isDocumentField name then
    match Emission.fieldFault? c.dialect name with
    | some cause => .error cause
    | none => .ok (.documentField c.schema.documentColumn name)
  else .ok (.column name)

theorem fieldClause_ok {c : Compiler} {name : String} {q : Sql} (h : c.fieldClause name = .ok q) :
    (c.schema.isDocumentField name = true ∧ Emission.fieldFault? c.dialect name = none ∧
      q = .documentField c.schema.documentColumn name) ∨
    (c.schema.isDocumentField name = false ∧ q = .column name) := by
  unfold fieldClause at h
  cases document : c.schema.isDocumentField name with
  | false => exact .inr ⟨rfl, by simpa [document] using h.symm⟩
  | true =>
    cases fault : Emission.fieldFault? c.dialect name with
    | none => exact .inl ⟨rfl, rfl, by simpa [document, fault] using h.symm⟩
    | some cause => simp [document, fault] at h

theorem fieldClause_error_iff {c : Compiler} {name : String} {cause : CompileError.Cause} :
    c.fieldClause name = .error cause ↔
      c.schema.isDocumentField name = true ∧ Emission.fieldFault? c.dialect name = some cause := by
  unfold fieldClause
  cases c.schema.isDocumentField name with
  | false => simp
  | true => cases Emission.fieldFault? c.dialect name <;> simp

/-- The clause of an operator, given those of its operands. -/
def joined (c : Compiler) : BinaryOp → Sql → Sql → Sql
  | .and => .infixed "and"
  | .or => .infixed "or"
  | .equals => .infixed "="
  | .textMatch => .textSearch c.schema.textSearchConfig

end Compiler

namespace Leaf

/-- The value bound for a leaf. -/
def bound? (leaf : Leaf) : Option Value :=
  match leaf.atom with
  | .literal v => Compiler.bound? leaf.inContext v
  | _ => none

/-- Why a leaf cannot be compiled. -/
def fault? (c : Compiler) (leaf : Leaf) : Option CompileError.Cause :=
  match leaf.atom with
  | .field name =>
    match c.fieldClause name with
    | .ok _ => none
    | .error cause => some cause
  | .parameter => some .unsupportedExpression
  | .literal v =>
    if (Compiler.bound? leaf.inContext v).isSome then none else some (.unsupportedLiteral v)

/-- The error recorded for a leaf. -/
def error? (c : Compiler) (leaf : Leaf) : Option CompileError :=
  (leaf.fault? c).map fun cause => ⟨leaf.place, cause⟩

def shift (n : Nat) (leaf : Leaf) : Leaf := ⟨leaf.place + n, leaf.inContext, leaf.atom⟩

end Leaf

namespace Expr

/-- The leaves of an expression from left to right, its first node being at `start`. -/
def leaves (s : Schema) (inContext : Bool) (start : Nat) : Expr Value → List Leaf
  | .field name => [⟨start, inContext, .field name⟩]
  | .parameter => [⟨start, inContext, .parameter⟩]
  | .literal v => [⟨start, inContext, .literal v⟩]
  | .binary op l r =>
    l.leaves s (within s inContext op l r) start ++
      r.leaves s (within s inContext op l r) (start + l.size)

/-- The values bound for an expression. -/
def parameters (s : Schema) (inContext : Bool) (e : Expr Value) : List Value :=
  (e.leaves s inContext 0).filterMap Leaf.bound?

/-- The errors recorded for an expression whose first node is at `start`. -/
def errors (c : Compiler) (inContext : Bool) (start : Nat) (e : Expr Value) : List CompileError :=
  (e.leaves c.schema inContext start).filterMap (Leaf.error? c)

/-- The clause of an expression, `bound` values having been bound before. -/
def sql? (c : Compiler) (inContext : Bool) (bound : Nat) : Expr Value → Option Sql
  | .field name => (c.fieldClause name).toOption
  | .parameter => none
  | .literal v => (Compiler.bound? inContext v).map fun _ => .placeholder bound inContext
  | .binary op l r =>
    let inner := within c.schema inContext op l r
    (l.sql? c inner bound).bind fun x =>
      (r.sql? c inner (bound + (l.parameters c.schema inner).length)).map fun y => c.joined op x y

theorem sql?_field {c : Compiler} {inContext : Bool} {bound : Nat} {name : String} {q : Sql}
    (h : (Expr.field name).sql? c inContext bound = some q) : c.fieldClause name = .ok q := by
  rw [sql?] at h
  cases clause : c.fieldClause name with
  | error cause => rw [clause] at h; cases h
  | ok p => simpa [clause, Except.toOption] using h

theorem sql?_binary {c : Compiler} {inContext : Bool} {bound : Nat} {op : BinaryOp}
    {l r : Expr Value} {q : Sql} (h : (Expr.binary op l r).sql? c inContext bound = some q) :
    ∃ x y, l.sql? c (within c.schema inContext op l r) bound = some x ∧
      r.sql? c (within c.schema inContext op l r)
        (bound + (l.parameters c.schema (within c.schema inContext op l r)).length) = some y ∧
      q = c.joined op x y := by
  simp only [sql?, Option.bind_eq_some_iff, Option.map_eq_some_iff] at h
  obtain ⟨x, left, y, right, rfl⟩ := h
  exact ⟨x, y, left, right, rfl⟩

theorem leaves_shift (s : Schema) (inContext : Bool) (start n : Nat) (e : Expr Value) :
    e.leaves s inContext (start + n) = (e.leaves s inContext start).map (Leaf.shift n) := by
  induction e generalizing inContext start with
  | binary op l r hl hr =>
    rw [leaves, leaves, List.map_append, hl, Nat.add_right_comm, hr]
  | _ => rfl

/-- What is bound does not depend on where an expression starts. -/
theorem filterMap_bound? (s : Schema) (inContext : Bool) (start : Nat) (e : Expr Value) :
    (e.leaves s inContext start).filterMap Leaf.bound? = e.parameters s inContext := by
  rw [← Nat.zero_add start, leaves_shift, List.filterMap_map]
  rfl

theorem parameters_binary (s : Schema) (inContext : Bool) (op : BinaryOp) (l r : Expr Value) :
    (Expr.binary op l r).parameters s inContext =
      l.parameters s (within s inContext op l r) ++ r.parameters s (within s inContext op l r) := by
  rw [parameters, leaves, List.filterMap_append, filterMap_bound?, filterMap_bound?]

@[simp] theorem parameters_field (s : Schema) (inContext : Bool) (name : String) :
    (Expr.field name).parameters s inContext = [] := rfl

@[simp] theorem parameters_parameter (s : Schema) (inContext : Bool) :
    Expr.parameter.parameters s inContext = [] := rfl

@[simp] theorem parameters_literal (s : Schema) (inContext : Bool) (v : Value) :
    (Expr.literal v).parameters s inContext = (Compiler.bound? inContext v).toList := by
  simp only [parameters, leaves, List.filterMap_cons, Leaf.bound?, List.filterMap_nil]
  cases Compiler.bound? inContext v <;> rfl

@[simp] theorem errors_field (c : Compiler) (inContext : Bool) (start : Nat) (name : String) :
    (Expr.field name).errors c inContext start =
      match c.fieldClause name with
      | .ok _ => []
      | .error cause => [⟨start, cause⟩] := by
  simp only [errors, leaves, List.filterMap_cons, Leaf.error?, Leaf.fault?, List.filterMap_nil]
  cases c.fieldClause name <;> rfl

@[simp] theorem errors_parameter (c : Compiler) (inContext : Bool) (start : Nat) :
    Expr.parameter.errors c inContext start = [⟨start, .unsupportedExpression⟩] := rfl

@[simp] theorem errors_literal (c : Compiler) (inContext : Bool) (start : Nat) (v : Value) :
    (Expr.literal v).errors c inContext start =
      if (Compiler.bound? inContext v).isSome then [] else [⟨start, .unsupportedLiteral v⟩] := by
  simp only [errors, leaves, List.filterMap_cons, Leaf.error?, Leaf.fault?, List.filterMap_nil]
  cases Compiler.bound? inContext v <;> rfl

theorem errors_binary (c : Compiler) (inContext : Bool) (start : Nat) (op : BinaryOp)
    (l r : Expr Value) :
    (Expr.binary op l r).errors c inContext start =
      l.errors c (within c.schema inContext op l r) start ++
        r.errors c (within c.schema inContext op l r) (start + l.size) :=
  List.filterMap_append

/-- **A clause is missing exactly if an error is recorded.** -/
theorem sql?_isSome_iff (c : Compiler) (inContext : Bool) (bound start : Nat) (e : Expr Value) :
    (e.sql? c inContext bound).isSome = true ↔ e.errors c inContext start = [] := by
  induction e generalizing inContext bound start with
  | field name =>
    rw [errors_field, sql?]
    cases c.fieldClause name <;> simp [Except.toOption]
  | parameter => simp [sql?]
  | literal v =>
    rw [errors_literal, sql?]
    cases Compiler.bound? inContext v <;> simp
  | binary op l r hl hr =>
    rw [errors_binary, List.append_eq_nil_iff, ← hl _ bound, ← hr _ (bound + _), sql?]
    rcases l.sql? c _ bound with _ | x
    · simp
    · rcases r.sql? c _ _ with _ | y <;> simp

end Expr

end RowFilter
