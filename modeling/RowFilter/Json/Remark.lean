import RowFilter.Text.Decimal

namespace RowFilter.Json

structure Remark where
  words : List Char
  line : Nat
  column : Nat
  deriving DecidableEq, Repr

namespace Remark

/-- The number in the digits at the front, of at most sixty-four bits, and what follows it. -/
def number? (cs : List Char) : Option (Nat × List Char) :=
  let n := Text.naturalOf (Text.leadingDigits cs)
  if Text.leadingDigits cs ≠ [] ∧ n < 0x10000000000000000 then some (n, Text.afterDigits cs)
  else none

def after? (start cs : List Char) : Option (List Char) :=
  if start.isPrefixOf cs then some (cs.drop start.length) else none

/-- The line and the column, if the text is a position and nothing else. -/
def position? (cs : List Char) : Option (Nat × Nat) := do
  let (line, cs) ← number? (← after? " at line ".toList cs)
  let (column, cs) ← number? (← after? " column ".toList cs)
  if cs = [] then some (line, column) else none

/-- Words with any position at their end taken off. -/
def cut : List Char → Remark
  | [] => ⟨[], 0, 0⟩
  | c :: cs =>
    match position? (c :: cs) with
    | some (line, column) => ⟨[], line, column⟩
    | none =>
      let rest := cut cs
      ⟨c :: rest.words, rest.line, rest.column⟩

def ofText (s : String) : Remark := cut s.toList

def text (r : Remark) : String :=
  String.ofList <| r.words ++
    if r.line = 0 then []
    else " at line ".toList ++ Text.natural r.line ++ " column ".toList ++ Text.natural r.column

example : (ofText "x at line 03 column 004").text = "x at line 3 column 4" := by decide +kernel
example : (ofText "x at line 3 column 4 at line 0 column 6").text = "x at line 3 column 4" := by
  decide +kernel

end Remark

end RowFilter.Json
