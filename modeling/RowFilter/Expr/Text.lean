import RowFilter.Expr.Basic
import RowFilter.Text.Quoted
import RowFilter.Value.Basic

namespace RowFilter

def BinaryOp.text : BinaryOp → String
  | .and => "and"
  | .or => "or"
  | .equals => "="
  | .textMatch => "matches"

/-- A constant; only a string is quoted. -/
def Value.literalText : Value → List Char
  | .string s => Text.quoted s
  | v => v.text.toList

def Expr.before (rest : List Char) : Expr Value → List Char
  | .field name => name.toList ++ rest
  | .parameter => '?' :: rest
  | .literal v => v.literalText ++ rest
  | .binary op l r =>
    '(' :: l.before (' ' :: op.text.toList ++ ' ' :: r.before (')' :: rest))

def Expr.text (e : Expr Value) : String := String.ofList (e.before [])

end RowFilter
