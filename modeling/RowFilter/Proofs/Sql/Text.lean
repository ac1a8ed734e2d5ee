import RowFilter.Sql.Basic

namespace RowFilter.Sql

/-- What stands in front of the first clause of a text search. -/
def searchText : List Char := "(to_tsvector(".toList

/-- What stands between the two clauses of a text search. -/
def searchQuery : List Char := ") @@ to_tsquery(".toList

/-- What marks a value as part of a document. -/
def cast : List Char := "::jsonb".toList

section
variable (d : Dialect) (rest : List Char)

theorem before_column (name : String) :
    (column name).before d rest = name.toList ++ rest := rfl

theorem before_documentField (document name : String) :
    (documentField document name).before d rest =
      document.toList ++ '-' :: '>' :: quoted name rest := rfl

theorem before_placeholder (position : Nat) (asDocument : Bool) :
    (placeholder position asDocument).before d rest =
      d.placeholder position ++ if asDocument then cast ++ rest else rest := rfl

theorem before_infixed (word : String) (l r : Sql) :
    (infixed word l r).before d rest =
      '(' :: l.before d (' ' :: word.toList ++ ' ' :: r.before d (')' :: rest)) := rfl

theorem before_textSearch (config : String) (l r : Sql) :
    (textSearch config l r).before d rest =
      searchText ++ quoted config (',' :: ' ' :: l.before d
        (searchQuery ++ quoted config (',' :: ' ' :: r.before d (')' :: ')' :: rest)))) := rfl

end

theorem before_append (d : Dialect) (q : Sql) (first rest : List Char) :
    q.before d (first ++ rest) = q.before d first ++ rest := by
  induction q generalizing first with
  | column name => simp only [before_column, List.append_assoc]
  | documentField document name =>
    simp only [before_documentField, quoted, List.cons_append, List.append_assoc]
  | placeholder position asDocument => cases asDocument <;> simp [before_placeholder]
  | infixed word l r hl hr =>
    have right := hr (')' :: first)
    have left := hl (' ' :: word.toList ++ ' ' :: r.before d (')' :: first))
    simp only [List.cons_append, List.append_assoc] at left right
    simp only [before_infixed, List.cons_append, right, left]
  | textSearch config l r hl hr =>
    have right := hr (')' :: ')' :: first)
    have left := hl (searchQuery ++ quoted config (',' :: ' ' :: r.before d (')' :: ')' :: first)))
    simp only [quoted, List.cons_append, List.append_assoc] at left right
    simp only [before_textSearch, quoted, List.cons_append, List.append_assoc, right, left]

end RowFilter.Sql
