import RowFilter.Compile.Error

namespace RowFilter

structure Filter where
  clause : Option String
  parameters : List Value
  errors : List CompileError
  deriving Repr

namespace Filter

def isValid (f : Filter) : Bool := f.errors.isEmpty && f.clause.isSome

/-- The clause with its values, or all errors. -/
def result (f : Filter) : Except (List CompileError) (String × List Value) :=
  match f.clause, f.errors with
  | some clause, [] => .ok (clause, f.parameters)
  | _, errors => .error errors

end Filter

end RowFilter
