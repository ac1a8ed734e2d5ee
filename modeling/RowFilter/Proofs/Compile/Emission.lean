import RowFilter.Proofs.Compile.Leaves

namespace RowFilter

namespace Emission

def of (bound : List Value) (errors : List CompileError) (clauses : List (Option Sql)) : Emission :=
  ⟨⟨bound.toArray⟩, errors.toArray, clauses.toArray⟩

/-- What the nodes of an expression leave in the table: only its own clause is still there. -/
def waiting {α : Type} (e : Expr α) (clause : Option Sql) : List (Option Sql) :=
  List.replicate (e.size - 1) none ++ [clause]

theorem length_waiting {α : Type} (e : Expr α) (clause : Option Sql) :
    (waiting e clause).length = e.size := by
  have := e.size_pos
  simp only [waiting, List.length_append, List.length_replicate, List.length_singleton]
  omega

theorem take_waiting {α : Type} (e : Expr α) (before after : List (Option Sql))
    (clause : Option Sql)
    (bound : List Value) (errors : List CompileError) :
    (of bound errors (before ++ (waiting e clause ++ after))).take (e.place before.length) =
      (clause, of bound errors (before ++ (List.replicate e.size none ++ after))) := by
  obtain ⟨n, size⟩ : ∃ n, e.size = n + 1 := ⟨e.size - 1, by have := e.size_pos; omega⟩
  have place : e.place before.length = (before ++ List.replicate n (none : Option Sql)).length := by
    simp only [Expr.place, size, List.length_append, List.length_replicate]
    omega
  have table : before ++ (waiting e clause ++ after) =
      (before ++ List.replicate n none) ++ clause :: after := by
    simp [waiting, size]
  simp only [take, of, table, place]
  simp [size, List.replicate_succ']

variable {bound : List Value} {errors : List CompileError}
variable {t : Tree} {c : Compiler} {scope : Array Bool} {clauses : List (Option Sql)} {id : NodeId}

theorem step_field {name : String} (node : t.node? id = some (.field name)) :
    step t (visitor c.schema c.dialect scope) (of bound errors clauses) id =
      match c.fieldClause name with
      | .ok clause => of bound errors (clauses ++ [some clause])
      | .error cause => of bound (errors ++ [⟨id, cause⟩]) (clauses ++ [none]) := by
  simp only [step, Tree.accept, node, Option.map_some, visitor, field, Compiler.fieldClause]
  by_cases document : c.schema.isDocumentField name = true
  · simp only [document, if_true]
    cases fieldFault? c.dialect name <;> simp [fail, of]
  · simp [document, of]

theorem step_parameter (node : t.node? id = some .parameter) :
    step t (visitor c.schema c.dialect scope) (of bound errors clauses) id =
      of bound (errors ++ [⟨id, .unsupportedExpression⟩]) (clauses ++ [none]) := by
  simp [step, Tree.accept, node, visitor, fail, of]

theorem step_literal {v : Value} (node : t.node? id = some (.literal v)) {inContext : Bool}
    (known : scope[id]? = some inContext) :
    step t (visitor c.schema c.dialect scope) (of bound errors clauses) id =
      match Compiler.bound? inContext v with
      | some w => of (bound ++ [w]) errors (clauses ++ [some (.placeholder bound.length inContext)])
      | none => of bound (errors ++ [⟨id, .unsupportedLiteral v⟩]) (clauses ++ [none]) := by
  simp only [step, Tree.accept, node, Option.map_some, visitor, literal, known, Option.getD_some,
    Compiler.bound?]
  by_cases primitive : v.isPrimitive = true
  · cases inContext with
    | false => simp [primitive, bind, of, Bindings.count, Bindings.add]
    | true =>
      cases v.documentText? <;>
        simp [primitive, fail, bind, of, Bindings.count, Bindings.add]
  · simp [primitive, fail, of]

theorem visitor_binary (op : BinaryOp) (id l r : NodeId) :
    (visitor c.schema c.dialect scope).binary op id l r = join (c.joined op) l r := by
  cases op <;> rfl

theorem join_waiting (l r : Expr Value) (before : List (Option Sql)) (make : Sql → Sql → Sql)
    (x y : Option Sql) :
    join make (l.place before.length) (r.place (before.length + l.size))
        (of bound errors (before ++ (waiting l x ++ waiting r y))) =
      (x.bind fun x => y.map fun y => make x y,
        of bound errors (before ++ List.replicate (l.size + r.size) none)) := by
  have right := take_waiting r (before ++ List.replicate l.size none) [] y bound errors
  simp only [List.length_append, List.length_replicate, List.append_nil, List.append_assoc] at right
  simp only [join, take_waiting, right, List.replicate_append_replicate]

/-- An operator leaves its own clause in place of those of its operands. -/
theorem step_binary {op : BinaryOp} {l r : Expr Value} {before : List (Option Sql)}
    (node : t.node? ((Expr.binary op l r).place before.length) =
      some ((Expr.binary op l r).top before.length)) (x y : Option Sql) :
    step t (visitor c.schema c.dialect scope)
        (of bound errors (before ++ (waiting l x ++ waiting r y)))
        ((Expr.binary op l r).place before.length) =
      of bound errors (before ++
        waiting (Expr.binary op l r) (x.bind fun x => y.map fun y => c.joined op x y)) := by
  have size : (Expr.binary op l r).size - 1 = l.size + r.size := by
    simp only [Expr.size]
    omega
  simp only [step, Tree.accept, node, Expr.top, Option.map_some, visitor_binary, join_waiting]
  simp [of, waiting, size]

/-! ## All nodes of an expression -/

/-- **The nodes of an expression bind its values, record its errors and leave its clause in the
table.** Whatever was bound, recorded or in the table before stays. -/
theorem foldl_step (c : Compiler) {whole e : Expr Value} {above : Option NodeId}
    {scope : Array Bool} (known : ∀ id, id < whole.size →
      scope[id]? = some (Context.covers c.schema (Tree.ofExpr whole) id))
    (bound : List Value) (errors : List CompileError) (clauses : List (Option Sql))
    (h : (Tree.ofExpr whole).Holds clauses.length above e) {inContext : Bool}
    (context : Context.covers c.schema (Tree.ofExpr whole) (e.place clauses.length) = inContext) :
    (List.range' clauses.length e.size).foldl
        (step (Tree.ofExpr whole) (visitor c.schema c.dialect scope)) (of bound errors clauses) =
      of (bound ++ e.parameters c.schema inContext)
        (errors ++ e.errors c inContext clauses.length)
        (clauses ++ waiting e (e.sql? c inContext bound.length)) := by
  induction e generalizing above bound errors clauses inContext with
  | field name =>
    have node : (Tree.ofExpr whole).node? clauses.length = some (.field name) := h.node?
    simp only [Expr.size, List.range'_one, List.foldl_cons, List.foldl_nil, step_field node,
      Expr.parameters_field, Expr.errors_field, Expr.sql?, waiting]
    cases c.fieldClause name <;> simp [Except.toOption]
  | parameter =>
    have node : (Tree.ofExpr whole).node? clauses.length = some .parameter := h.node?
    simp [Expr.size, step_parameter node, Expr.sql?, waiting]
  | literal v =>
    have node : (Tree.ofExpr whole).node? clauses.length = some (.literal v) := h.node?
    have inside := h.count_le
    rw [Tree.ofExpr_count] at inside
    have entry : scope[clauses.length]? = some inContext := context ▸ known clauses.length inside
    simp only [Expr.size, List.range'_one, List.foldl_cons, List.foldl_nil,
      step_literal node entry, Expr.parameters_literal, Expr.errors_literal, Expr.sql?, waiting]
    cases Compiler.bound? inContext v <;> simp
  | binary op l r hl hr =>
    have inner {id : Nat} (parent : (Tree.ofExpr whole).parent? id =
        some ((Expr.binary op l r).place clauses.length)) :=
      Context.covers_operand c.schema h context parent
    obtain ⟨within, is_within⟩ : ∃ b, Expr.within c.schema inContext op l r = b := ⟨_, rfl⟩
    obtain ⟨x, is_left⟩ : ∃ x, l.sql? c within bound.length = x := ⟨_, rfl⟩
    simp only [is_within] at inner
    have left := hl bound errors clauses h.left (inner h.left.parent?)
    have next : (clauses ++ waiting l x).length = clauses.length + l.size := by
      rw [List.length_append, length_waiting]
    have right := hr (bound ++ l.parameters c.schema within)
      (errors ++ l.errors c within clauses.length) (clauses ++ waiting l x)
      (next.symm ▸ h.right) (next.symm ▸ inner h.right.parent?)
    simp only [next, List.length_append, List.append_assoc] at right
    rw [Expr.range_binary, List.foldl_append, left, is_left, List.foldl_append, right,
      List.foldl_cons, List.foldl_nil, step_binary h.node?]
    simp only [Expr.parameters_binary, Expr.errors_binary, Expr.sql?, is_within, is_left]

end Emission

/-! ## The filter of a tree -/

namespace Compiler

/-- **What the filter of an assembled tree consists of**: the clause of the expression, the values
bound for it and the errors recorded for it. -/
theorem compile_ofExpr (c : Compiler) (e : Expr Value) :
    c.compile (Tree.ofExpr e) =
      ⟨(e.sql? c false 0).map (Sql.text c.dialect), e.parameters c.schema false,
        e.errors c false 0⟩ := by
  have emitted := Emission.foldl_step c (fun _ inside => Context.scope_ofExpr c.schema e inside)
    [] [] [] (Tree.ofExpr_holds e) (Context.covers_root c.schema e)
  have nodes : (Tree.ofExpr e).nodes = List.range' 0 e.size := by
    rw [Tree.nodes, Tree.ofExpr_count, List.range_eq_range']
  have empty : Emission.empty = Emission.of [] [] [] := rfl
  have root := Emission.take_waiting e [] [] (e.sql? c false 0) (e.parameters c.schema false)
    (e.errors c false 0)
  simp only [List.nil_append, List.append_nil, List.length_nil, Tree.ofExpr_root] at emitted root
  simp only [compile, nodes, empty, Emission.finish, Tree.ofExpr_root, emitted, root]
  simp [Emission.of, Bindings.toList]

theorem clause_isSome_iff (c : Compiler) (e : Expr Value) :
    (c.compile (Tree.ofExpr e)).clause.isSome = true ↔ (c.compile (Tree.ofExpr e)).errors = [] := by
  rw [compile_ofExpr, Option.isSome_map]
  exact Expr.sql?_isSome_iff c false 0 0 e

end Compiler

end RowFilter
