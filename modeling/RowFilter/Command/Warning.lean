import RowFilter.Compile.Filter
import RowFilter.Text.Terminal

/-! What is logged about a filter with errors: first the compiler tells how many there are, then the
command tells each of them, behind the path of the expression. -/

namespace RowFilter.Command

inductive Warning
  /-- The compiler's. -/
  | compiled (errors : Nat)
  /-- The command's, for one error. -/
  | error (path message : String)
  deriving DecidableEq, Repr

namespace Warning

/-- The line that is logged. Only the texts in it have to be made fit for a terminal. -/
def line : Warning → String
  | .compiled n => "Filter compiled with errors errors=" ++ String.ofList (Text.natural n)
  | .error path message => Text.terminal (path ++ ": " ++ message)

def isError : Warning → Bool
  | .compiled _ => false
  | .error .. => true

/-- What the compiler logs when it is done. -/
def ofCompiler (f : Filter) : List Warning :=
  if f.errors.isEmpty then [] else [.compiled f.errors.length]

/-- What is logged for a filter, compiled from the file at a path. -/
def ofFilter (path : String) (f : Filter) : List Warning :=
  ofCompiler f ++ f.errors.map fun e => .error path e.message

end Warning

end RowFilter.Command
