import RowFilter.Compile.Filter

namespace RowFilter.Filter

def report (f : Filter) : Json :=
  .obj [("where_clause", (f.clause.map .str).getD .null),
    ("parameters", .arr (f.parameters.map Value.toJson)),
    ("errors", .arr (f.errors.map fun e => .str e.message))]

theorem report_errors (f : Filter) :
    f.report.get? "errors" = some (.arr (f.errors.map fun e => .str e.message)) := rfl

theorem report_clause (f : Filter) :
    f.report.get? "where_clause" = some ((f.clause.map .str).getD .null) := rfl

theorem report_clause_eq_null_iff {f : Filter} :
    f.report.get? "where_clause" = some .null ↔ f.clause.isSome = false := by
  rw [report_clause]
  cases f.clause <;> simp

end RowFilter.Filter
