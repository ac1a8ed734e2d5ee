import RowFilter.Expr.Basic
import RowFilter.Json.Tagged
import RowFilter.Value.Basic

namespace RowFilter.Expr

open Json (Reader Problem Alternative Alternatives)

/-- The forms an expression may have, in the order in which a message lists them. Given is the
number of brackets that may be open in a constant, and the reader of an operand, if a list may
still be opened. -/
def forms (depth : Nat) (operand : Option (Reader (Expr Json))) : Alternatives (Expr Json) :=
  [("field", .holding (Json.string "a string") .field),
    ("literal", .holding (Json.value depth) .literal),
    ("parameter", .plain .parameter),
    ("and", .pairing "tuple variant ExprFile::And" operand (.binary .and)),
    ("or", .pairing "tuple variant ExprFile::Or" operand (.binary .or)),
    ("equals", .pairing "tuple variant ExprFile::Equals" operand (.binary .equals)),
    ("matches", .pairing "tuple variant ExprFile::Matches" operand (.binary .textMatch))]

/-- Reads an expression with at most `depth` brackets open at once. Operands stand behind two. -/
def read : Nat → Reader (Expr Json)
  | 0 => Json.tagged (forms 0 none) false
  | 1 => Json.tagged (forms 0 none) true
  | depth + 2 => Json.tagged (forms (depth + 1) (some (read depth))) true

def parse (s : String) : Except Problem (Expr Json) := Json.readAll (read Json.depthLimit) s

def ofDocument (e : Expr Json) : Expr Value := e.map Value.ofJson

end RowFilter.Expr
