import RowFilter.Mismatch

namespace RowFilter.Json

inductive Problem
  /-- The text ends inside a value. -/
  | cutOff
  /-- The text is not JSON, or nests too deeply, or holds a number past all finite ones. -/
  | malformed
  /-- The text is JSON as far as it was read, but not of the form asked for. -/
  | mismatch (m : Mismatch)
  deriving DecidableEq, Repr

/-- What is found where something else had to follow: the end of the text, or a wrong character. -/
def Problem.at {α : Type} : List α → Problem
  | [] => .cutOff
  | _ :: _ => .malformed

end RowFilter.Json
