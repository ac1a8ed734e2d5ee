import RowFilter.Binary64.Text
import RowFilter.Json.Basic
import RowFilter.Text.Decimal
import RowFilter.Text.Hex

namespace RowFilter

def Json.escapeChar (c : Char) : List Char :=
  match c with
  | '"' => ['\\', '"']
  | '\\' => ['\\', '\\']
  | '\x08' => ['\\', 'b']
  | '\x0c' => ['\\', 'f']
  | '\n' => ['\\', 'n']
  | '\r' => ['\\', 'r']
  | '\t' => ['\\', 't']
  | c => if c.toNat < 32 then '\\' :: 'u' :: Text.hexDigits 4 c.toNat else [c]

def Json.quote (s : String) : List Char := '"' :: s.toList.flatMap escapeChar ++ ['"']

def Number.text : Number → List Char
  | .int n _ => Text.integer n
  | .float x _ => x.scientificText.toList

namespace Json

def boolText (b : Bool) : List Char := if b then "true".toList else "false".toList

mutual

/-- The value on one line. -/
def compact : Json → List Char
  | .null => "null".toList
  | .bool b => boolText b
  | .num n => n.text
  | .str s => quote s
  | .arr [] => ['[', ']']
  | .arr (x :: xs) => '[' :: compact x ++ compactItems xs
  | .obj [] => ['{', '}']
  | .obj ((k, v) :: ms) => '{' :: quote k ++ ':' :: compact v ++ compactMembers ms

/-- The items after the first, and the closing bracket. -/
def compactItems : List Json → List Char
  | [] => [']']
  | x :: xs => ',' :: compact x ++ compactItems xs

/-- The members after the first, and the closing brace. -/
def compactMembers : List (String × Json) → List Char
  | [] => ['}']
  | (k, v) :: ms => ',' :: quote k ++ ':' :: compact v ++ compactMembers ms

end

/-- A new line at a depth of indentation, two blanks a step. -/
def newLine (depth : Nat) : List Char := '\n' :: List.replicate (2 * depth) ' '

mutual

/-- The value over lines; an empty list or object stays on one. -/
def pretty (depth : Nat) : Json → List Char
  | .null => "null".toList
  | .bool b => boolText b
  | .num n => n.text
  | .str s => quote s
  | .arr [] => ['[', ']']
  | .arr (x :: xs) =>
    '[' :: newLine (depth + 1) ++ pretty (depth + 1) x ++ prettyItems depth xs
  | .obj [] => ['{', '}']
  | .obj ((k, v) :: ms) =>
    '{' :: newLine (depth + 1) ++ quote k ++ ':' :: ' ' :: pretty (depth + 1) v ++
      prettyMembers depth ms

def prettyItems (depth : Nat) : List Json → List Char
  | [] => newLine depth ++ [']']
  | x :: xs => ',' :: newLine (depth + 1) ++ pretty (depth + 1) x ++ prettyItems depth xs

def prettyMembers (depth : Nat) : List (String × Json) → List Char
  | [] => newLine depth ++ ['}']
  | (k, v) :: ms =>
    ',' :: newLine (depth + 1) ++ quote k ++ ':' :: ' ' :: pretty (depth + 1) v ++
      prettyMembers depth ms

end

def text (j : Json) : String := String.ofList j.compact

def prettyText (j : Json) : String := String.ofList (j.pretty 0)

example : text (.arr [.str "a\n\x1f\x7f", .obj [("k", .bool true)]]) =
    "[\"a\\n\\u001f\x7f\",\x7b\"k\":true\x7d]" := by decide +kernel

end Json

end RowFilter
