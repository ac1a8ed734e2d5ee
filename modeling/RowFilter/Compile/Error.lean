import RowFilter.Tree.Basic

namespace RowFilter

/-- Why a node cannot be compiled. -/
inductive CompileError.Cause
  /-- A value that is yet to be supplied. -/
  | unsupportedExpression
  /-- The name of a document field that would end its quotes. -/
  | unsafeFieldName (name : String)
  /-- The name of a document field that would count as a placeholder. -/
  | placeholderInFieldName (name : String)
  /-- A constant that its column cannot be compared with. -/
  | unsupportedLiteral (value : Value)
  deriving Repr

structure CompileError where
  node : NodeId
  cause : CompileError.Cause
  deriving Repr

namespace CompileError

def message (e : CompileError) : String :=
  match e.cause with
  | .unsupportedExpression => "Parameter expression not supported"
  | .unsafeFieldName name => "Single quote not allowed in field name: " ++ name
  | .placeholderInFieldName name => "Placeholder character '?' not allowed in field name: " ++ name
  | .unsupportedLiteral value => "Unknown value type of " ++ value.text ++ ": " ++ value.kind

def summary (errors : List CompileError) : String :=
  "Filter failed to compile: " ++
    if errors.isEmpty then "no fragment produced"
    else "; ".intercalate (errors.map message)

end CompileError

end RowFilter
