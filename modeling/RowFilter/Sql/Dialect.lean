import RowFilter.Text.Decimal

namespace RowFilter

inductive Dialect
  | questionMark
  | postgres
  deriving DecidableEq, Repr

namespace Dialect

/-- The reference to the value at a position, counted from zero. -/
def placeholder : Dialect → Nat → List Char
  | .questionMark, _ => ['?']
  | .postgres, position => '$' :: Text.natural (position + 1)

def name : Dialect → String
  | .questionMark => "QuestionMark"
  | .postgres => "PostgreSQL"

/-- Whether placeholders carry no number. -/
def isAnonymous : Dialect → Bool
  | .questionMark => true
  | .postgres => false

def ofName? : String → Option Dialect
  | "question-mark" => some .questionMark
  | "postgres" => some .postgres
  | _ => none

def option : Dialect → String
  | .questionMark => "question-mark"
  | .postgres => "postgres"

@[simp] theorem ofName?_option (d : Dialect) : ofName? d.option = some d := by cases d <;> rfl

end Dialect

end RowFilter
