import RowFilter.Proofs.Compile.Emission
import RowFilter.Proofs.Sql.Text

namespace RowFilter

namespace Compiler

theorem fieldText_eq (c : Compiler) (name : String) :
    c.fieldText name = (c.fieldClause name).map fun q => q.before c.dialect [] := by
  unfold fieldText fieldClause
  cases document : c.schema.isDocumentField name with
  | false => simp [Except.map, Sql.before_column]
  | true =>
    simp only [Bool.not_true, Bool.false_eq_true, if_false, if_true, Emission.fieldFault?,
      List.contains_iff_mem]
    by_cases quote : '\'' ∈ name.toList
    · simp only [quote, if_true]
      rfl
    simp only [quote, if_false]
    cases c.dialect with
    | postgres => simp [Dialect.isAnonymous, Except.map, Sql.before_documentField, Sql.quoted]
    | questionMark =>
      by_cases mark : '?' ∈ name.toList
      · simp [Dialect.isAnonymous, mark, Except.map]
      · simp [Dialect.isAnonymous, mark, Except.map, Sql.before_documentField, Sql.quoted]

section
variable (c : Compiler) (l r : List Char)

theorem template_and : c.template .and l r = '(' :: l ++ " and ".toList ++ r ++ [')'] := rfl

theorem template_or : c.template .or l r = '(' :: l ++ " or ".toList ++ r ++ [')'] := rfl

theorem template_equals : c.template .equals l r = '(' :: l ++ " = ".toList ++ r ++ [')'] := rfl

theorem template_textMatch : c.template .textMatch l r =
    "(to_tsvector('".toList ++ c.schema.textSearchConfig.toList ++ "', ".toList ++ l ++
      ") @@ to_tsquery('".toList ++ c.schema.textSearchConfig.toList ++ "', ".toList ++ r ++
        "))".toList := rfl

end

/-- The text of an operator around the texts of two clauses is that of the clause they make. -/
theorem template_eq (c : Compiler) (op : BinaryOp) (x y : Sql) :
    c.template op (x.before c.dialect []) (y.before c.dialect []) =
      (c.joined op x y).before c.dialect [] := by
  cases op with
  | textMatch =>
    have search : "(to_tsvector('".toList = Sql.searchText ++ ['\''] := by decide +kernel
    have query : ") @@ to_tsquery('".toList = Sql.searchQuery ++ ['\''] := by decide +kernel
    have between : "', ".toList = ['\'', ',', ' '] := by decide +kernel
    have close : "))".toList = [')', ')'] := by decide +kernel
    simp only [template_textMatch, joined, Sql.before_textSearch, Sql.quoted, search, query,
      between, close, List.cons_append, List.nil_append, List.append_assoc, ← Sql.before_append]
  | _ =>
    simp only [template_and, template_or, template_equals, joined, Sql.before_infixed,
      String.reduceToList, List.cons_append, List.nil_append, ← Sql.before_append]

theorem text_joined (c : Compiler) (op : BinaryOp) (x y : Sql) :
    (c.joined op x y).text c.dialect =
      String.ofList (c.template op (x.text c.dialect).toList (y.text c.dialect).toList) := by
  simp only [Sql.text, String.toList_ofList, template_eq]

theorem reference_eq (c : Compiler) (inContext : Bool) (p : Progress) :
    c.reference inContext p =
      c.dialect.placeholder p.parameters.length ++ if inContext then Sql.cast else [] := rfl

/-- What the walk over an expression finds, and how far it comes. -/
theorem compileWithin_eq (c : Compiler) (inContext : Bool) (e : Expr Value) (p : Progress) :
    c.compileWithin inContext e p =
      ((e.sql? c inContext p.parameters.length).map fun q => q.before c.dialect [],
        ⟨p.next + e.size, p.parameters ++ e.parameters c.schema inContext,
          p.errors ++ e.errors c inContext p.next⟩) := by
  induction e generalizing inContext p with
  | field name =>
    simp only [compileWithin, fieldText_eq, Expr.sql?, Expr.size, Expr.errors_field]
    cases c.fieldClause name <;>
      simp [Except.map, Except.toOption, Progress.pass, Progress.fail]
  | parameter => simp [compileWithin, Expr.sql?, Expr.size, Progress.pass, Progress.fail]
  | literal v =>
    simp only [compileWithin, Expr.sql?, Expr.size, Expr.parameters_literal, Expr.errors_literal]
    cases bound? inContext v with
    | none => simp [Progress.pass, Progress.fail]
    | some w =>
      cases inContext <;>
        simp [Progress.pass, Progress.bind, reference_eq, Sql.before_placeholder]
  | binary op l r hl hr =>
    have inner : (inContext || (Expr.binary op l r).isMarked c.schema) =
        Expr.within c.schema inContext op l r := rfl
    simp only [compileWithin, inner, hl, hr, Expr.sql?, Expr.size, Expr.parameters_binary,
      Expr.errors_binary, Progress.pass, List.append_assoc, List.length_append, Nat.add_assoc]
    rcases l.sql? c _ _ with _ | x
    · rfl
    rcases r.sql? c _ _ with _ | y
    · rfl
    simp only [Option.map_some, Option.bind_some, template_eq]

/-- **Both ways of compiling lead to one filter.** Assembling a tree, marking it, scanning it for
document context and emitting its nodes into a table comes to the same as one walk over the
expression. -/
theorem compile_eq_compileExpr (c : Compiler) (e : Expr Value) :
    c.compile (Tree.ofExpr e) = c.compileExpr e := by
  rw [compile_ofExpr, compileExpr, compileWithin_eq]
  simp only [Progress.start, List.length_nil, List.nil_append, Option.map_map]
  rfl

end Compiler

end RowFilter
