import RowFilter.Sql.Dialect

namespace RowFilter

inductive Sql
  /-- A column by its bare name. -/
  | column (name : String)
  /-- An attribute of the document in a column. -/
  | documentField (document name : String)
  /-- The value bound at a position, read as part of a document if `asDocument` is set. -/
  | placeholder (position : Nat) (asDocument : Bool)
  /-- Two clauses with a word between. -/
  | infixed (word : String) (left right : Sql)
  /-- The search of a text for a query under a configuration. -/
  | textSearch (config : String) (left right : Sql)
  deriving DecidableEq, Repr

namespace Sql

def quoted (name : String) (rest : List Char) : List Char :=
  '\'' :: name.toList ++ '\'' :: rest

/-- The text of a clause in front of `rest`. -/
def before (d : Dialect) (rest : List Char) : Sql → List Char
  | .column name => name.toList ++ rest
  | .documentField document name => document.toList ++ '-' :: '>' :: quoted name rest
  | .placeholder position asDocument =>
    d.placeholder position ++ (if asDocument then "::jsonb".toList ++ rest else rest)
  | .infixed word l r =>
    '(' :: l.before d (' ' :: word.toList ++ ' ' :: r.before d (')' :: rest))
  | .textSearch config l r =>
    "(to_tsvector(".toList ++ quoted config (", ".toList ++ l.before d
      (") @@ to_tsquery(".toList ++ quoted config (", ".toList ++ r.before d
        ("))".toList ++ rest))))

def text (d : Dialect) (s : Sql) : String := String.ofList (s.before d [])

example : text .postgres (.infixed "=" (.documentField "Fields" "a") (.placeholder 0 true)) =
    "(Fields->'a' = $1::jsonb)" := by decide +kernel

end Sql

end RowFilter
