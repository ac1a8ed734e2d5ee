import RowFilter.Proofs.Sql.Text

namespace RowFilter

inductive Fragment
  /-- Text that stands outside of quotes. -/
  | plain (text : List Char)
  /-- A name between quotes. -/
  | quoted (name : String)
  /-- A reference to the value bound at a position. -/
  | reference (position : Nat) (asDocument : Bool)

namespace Fragment

def write (d : Dialect) : Fragment → List Char
  | plain text => text
  | quoted name => '\'' :: (name.toList ++ ['\''])
  | reference position asDocument => d.placeholder position ++ if asDocument then Sql.cast else []

/-- The name that a fragment holds between quotes. -/
def name? : Fragment → Option String
  | quoted name => some name
  | _ => none

/-- The position that a fragment refers to, and whether with a cast. -/
def reference? : Fragment → Option (Nat × Bool)
  | reference position asDocument => some (position, asDocument)
  | _ => none

end Fragment

namespace Sql

def fragments : Sql → List Fragment
  | column name => [.plain name.toList]
  | documentField document name => [.plain (document.toList ++ ['-', '>']), .quoted name]
  | placeholder position asDocument => [.reference position asDocument]
  | infixed word l r =>
    .plain ['('] :: (l.fragments ++
      .plain (' ' :: (word.toList ++ [' '])) :: (r.fragments ++ [.plain [')']]))
  | textSearch config l r =>
    .plain searchText :: .quoted config :: .plain [',', ' '] :: (l.fragments ++
      .plain searchQuery :: .quoted config :: .plain [',', ' '] ::
        (r.fragments ++ [.plain [')', ')']]))

@[simp] theorem fragments_column (name : String) :
    (column name).fragments = [.plain name.toList] := rfl

@[simp] theorem fragments_documentField (document name : String) :
    (documentField document name).fragments =
      [.plain (document.toList ++ ['-', '>']), .quoted name] := rfl

@[simp] theorem fragments_placeholder (position : Nat) (asDocument : Bool) :
    (placeholder position asDocument).fragments = [.reference position asDocument] := rfl

@[simp] theorem fragments_infixed (word : String) (l r : Sql) :
    (infixed word l r).fragments =
      .plain ['('] :: (l.fragments ++
        .plain (' ' :: (word.toList ++ [' '])) :: (r.fragments ++ [.plain [')']])) := rfl

@[simp] theorem fragments_textSearch (config : String) (l r : Sql) :
    (textSearch config l r).fragments =
      .plain searchText :: .quoted config :: .plain [',', ' '] :: (l.fragments ++
        .plain searchQuery :: .quoted config :: .plain [',', ' '] ::
          (r.fragments ++ [.plain [')', ')']])) := rfl

/-- **The text of a clause is written fragment by fragment.** -/
theorem before_eq_write (d : Dialect) (q : Sql) (rest : List Char) :
    q.before d rest = q.fragments.flatMap (Fragment.write d) ++ rest := by
  induction q generalizing rest with
  | column name => simp [before_column, Fragment.write]
  | documentField document name => simp [before_documentField, quoted, Fragment.write]
  | placeholder position asDocument =>
    cases asDocument <;> simp [before_placeholder, Fragment.write]
  | infixed word l r hl hr => simp [before_infixed, hl, hr, Fragment.write]
  | textSearch config l r hl hr =>
    simp [before_textSearch, quoted, hl, hr, Fragment.write]

theorem toList_text (d : Dialect) (q : Sql) :
    (q.text d).toList = q.fragments.flatMap (Fragment.write d) := by
  rw [text, String.toList_ofList, before_eq_write, List.append_nil]

end Sql

end RowFilter
