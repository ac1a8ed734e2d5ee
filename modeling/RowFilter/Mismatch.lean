import RowFilter.Text.Decimal
import RowFilter.Text.Quoted

namespace RowFilter

inductive Found
  | integer (n : Int)
  /-- A number with a fraction, in the spelling of the document's format. -/
  | floatingPoint (spelling : String)
  | text (s : String)
  | boolean (b : Bool)
  | null
  | list
  | table
  /-- A bare name where the name needs content beside it. -/
  | bareVariant
  deriving DecidableEq, Repr

inductive Mismatch
  | unknownVariant (name : String) (known : List String)
  | unknownField (name : String) (known : List String)
  | wrongType (found : Found) (wanted : String)
  | wrongRange (n : Int) (wanted : String)
  | wrongLength (n : Nat) (wanted : String)
  /-- A text that is not one of the identifiers, dates or times it should be. -/
  | unreadable
  deriving DecidableEq, Repr

def Found.describe : Found → String
  | .integer n => "integer `" ++ String.ofList (Text.integer n) ++ "`"
  | .floatingPoint spelling => "floating point `" ++ spelling ++ "`"
  | .text s => "string " ++ String.ofList (Text.quoted s)
  | .boolean b => "boolean `" ++ (if b then "true" else "false") ++ "`"
  | .null => "null"
  | .list => "sequence"
  | .table => "map"
  | .bareVariant => "unit variant"

/-- Names in backquotes with commas between. -/
def oneOf (names : List String) : String :=
  "one of " ++ ", ".intercalate (names.map fun n => "`" ++ n ++ "`")

/-- The message, where the mismatch has a fixed one. -/
def Mismatch.message? : Mismatch → Option String
  | .unknownVariant name known => some ("unknown variant `" ++ name ++ "`, expected " ++ oneOf known)
  | .unknownField name known => some ("unknown field `" ++ name ++ "`, expected " ++ oneOf known)
  | .wrongType found wanted =>
    some ("invalid type: " ++ found.describe ++ ", expected " ++ wanted)
  | .wrongRange n wanted =>
    some ("invalid value: " ++ (Found.integer n).describe ++ ", expected " ++ wanted)
  | .wrongLength n wanted => some ("invalid length " ++ String.ofList (Text.integer n) ++ ", expected " ++ wanted)
  | .unreadable => none

end RowFilter
