import RowFilter.Proofs.Compile.Quotation
import RowFilter.Proofs.Sql.Reader

/-! A compiled clause is read back as the expression that it was compiled from, up to the constants,
whatever its columns and its attributes of the document are called. Two filters that differ in more
than constants therefore never share a clause. -/

namespace RowFilter

theorem Compiler.before_joined (c : Compiler) (op : BinaryOp) (x y : Sql) (d : Dialect)
    (rest : List Char) :
    (c.joined op x y).before d rest = (Sql.frame c.schema op).opening ++
      x.before d ((Sql.frame c.schema op).between ++
        y.before d ((Sql.frame c.schema op).closing ++ rest)) := by
  cases op with
  | textMatch =>
    simp only [joined, Sql.before_textSearch, Sql.frame, Sql.quoted, List.cons_append,
      List.append_assoc, List.nil_append]
  | _ => simp [joined, Sql.before_infixed, Sql.frame]

namespace Expr

variable {c : Compiler} {e : Expr Value} {inContext : Bool} {bound : Nat} {q : Sql}

/-- The left operand of an operator never looks like the beginning of a text search, not even if
it is a column of that name. -/
theorem not_calls (h : e.sql? c inContext bound = some q) {rest : List Char}
    (ends : Sql.Ends rest) : ¬Sql.Calls (q.before c.dialect rest) := by
  cases e with
  | field name =>
    rcases Compiler.fieldClause_ok (sql?_field h) with ⟨-, -, rfl⟩ | ⟨column, rfl⟩
    · exact Sql.not_calls_documentField c.dialect (Schema.valid_iff.1 c.valid).1
    · exact Sql.not_calls_column c.dialect (c.identifier_of_column column) ends
  | parameter => cases h
  | literal v =>
    obtain ⟨w, -, rfl⟩ := Option.map_eq_some_iff.1 h
    exact Sql.not_calls_placeholder c.dialect bound inContext
  | binary op l r =>
    obtain ⟨x, y, -, -, rfl⟩ := sql?_binary h
    rw [c.before_joined]
    exact Sql.not_calls_of_head (Sql.head?_opening c.schema op _) (by decide)

/-- **A compiled clause is read back** as the expression that it was compiled from, its constants
erased. -/
theorem read_before (h : e.sql? c inContext bound = some q) {depth : Nat} (deep : e.size ≤ depth)
    {rest : List Char} (ends : Sql.Ends rest) :
    Sql.read c.schema c.dialect depth (q.before c.dialect rest) =
      some (e.map fun _ => (), rest) := by
  induction depth generalizing e inContext bound q rest with
  | zero => exact absurd e.size_pos (by omega)
  | succ depth ih =>
    cases e with
    | field name =>
      rcases Compiler.fieldClause_ok (sql?_field h) with ⟨-, unfaulted, rfl⟩ | ⟨column, rfl⟩
      · have quote := (Fragment.Safe.of_unfaulted unfaulted).1
        exact Sql.read_documentField _ _ depth (Schema.valid_iff.1 c.valid).1 quote
      · exact Sql.read_column _ _ depth (c.identifier_of_column column) ends
    | parameter => cases h
    | literal v =>
      obtain ⟨w, -, rfl⟩ := Option.map_eq_some_iff.1 h
      exact Sql.read_placeholder _ _ depth bound inContext ends
    | binary op l r =>
      obtain ⟨x, y, left, right, rfl⟩ := sql?_binary h
      simp only [size] at deep
      have breaks := Sql.ends_between c.schema op
        (y.before c.dialect ((Sql.frame c.schema op).closing ++ rest))
      have first := ih left (by omega) breaks
      have second := ih right (by omega) (Sql.ends_closing c.schema op rest)
      rw [c.before_joined, Sql.read, Sql.opened?_opening _ _ (not_calls left breaks)]
      simp only [first, second, Option.bind_eq_bind, Option.bind_some, Sql.operator?_between,
        Sql.isPrefixOf?_append, map]

end Expr

namespace Compiler

/-- **A clause determines the form of its expression.** If two expressions compile without errors
to one text, they differ in nothing but their constants, whatever the names in them look like. -/
theorem map_eq_of_clause (c : Compiler) {e e' : Expr Value}
    (ok : (c.compile (Tree.ofExpr e)).errors = [])
    (ok' : (c.compile (Tree.ofExpr e')).errors = [])
    (same : (c.compile (Tree.ofExpr e)).clause = (c.compile (Tree.ofExpr e')).clause) :
    (e.map fun _ => ()) = e'.map fun _ => () := by
  simp only [compile_ofExpr] at ok ok' same
  obtain ⟨q, compiled⟩ := Option.isSome_iff_exists.1 ((Expr.sql?_isSome_iff c false 0 0 e).2 ok)
  obtain ⟨q', compiled'⟩ :=
    Option.isSome_iff_exists.1 ((Expr.sql?_isSome_iff c false 0 0 e').2 ok')
  have text : q.before c.dialect [] = q'.before c.dialect [] := by
    simpa [compiled, compiled', Sql.text, String.ofList_inj] using same
  have no_rest : Sql.Ends [] := by
    intro ch mem
    cases mem
  have found := Expr.read_before compiled (Nat.le_add_right e.size e'.size) no_rest
  have found' := Expr.read_before compiled' (Nat.le_add_left e'.size e.size) no_rest
  rw [text, found'] at found
  exact (congrArg Prod.fst (Option.some.inj found)).symm

theorem map_eq_of_lookalike_clause :
    let c : Compiler := ⟨⟨.ofList ["to_tsvector"], "and", "english"⟩, by decide +kernel, .postgres⟩
    let e (v : Value) : Expr Value := .binary .equals
      (.binary .and (.field "to_tsvector") (.field "$1::jsonb) and (->")) (.literal v)
    let f (v : Value) : Filter := c.compile (Tree.ofExpr (e v))
    (f (.bool true)).errors = [] ∧ (f (.string "x")).errors = [] ∧
      (f (.bool true)).clause = (f (.string "x")).clause ∧
      ((e (.bool true)).map fun _ => ()) = (e (.string "x")).map fun _ => () := by
  intro c e f
  have ok : (f (.bool true)).errors = [] := by
    simp only [f, compile_ofExpr]
    exact List.isEmpty_iff.1 (by decide +kernel)
  have ok' : (f (.string "x")).errors = [] := by
    simp only [f, compile_ofExpr]
    exact List.isEmpty_iff.1 (by decide +kernel)
  have same : (f (.bool true)).clause = (f (.string "x")).clause := by
    simp only [f, compile_ofExpr]
    decide +kernel
  exact ⟨ok, ok', same, map_eq_of_clause c ok ok' same⟩

end Compiler

end RowFilter
