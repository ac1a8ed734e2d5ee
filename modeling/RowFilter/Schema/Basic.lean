import RowFilter.Json.Basic
import RowFilter.Schema.Columns

namespace RowFilter

structure Schema where
  columns : Columns
  documentColumn : String
  textSearchConfig : String
  deriving DecidableEq

namespace Schema

def default : Schema := ⟨.ofList ["ID", "Type", "Version"], "Fields", "english"⟩

/-- Whether a field is an attribute of the document and not a column. -/
def isDocumentField (s : Schema) (name : String) : Bool := name ∉ s.columns

theorem isDocumentField_iff {s : Schema} {name : String} :
    s.isDocumentField name = true ↔ name ∉ s.columns := decide_eq_true_iff

/-- The parts of a schema that hold names. -/
inductive Setting
  | documentColumn
  | textSearchConfig
  | relationalColumn
  deriving DecidableEq, Repr

def Setting.text : Setting → String
  | .documentColumn => "document column"
  | .textSearchConfig => "text search config"
  | .relationalColumn => "relational column"

def isIdentifierChar (c : Char) : Bool := c.isAlphanum || c == '_'

/-- ASCII letters, digits and underscores, at least one. -/
def isIdentifier (name : String) : Bool := name != "" && name.toList.all isIdentifierChar

theorem isIdentifier_iff {name : String} :
    isIdentifier name = true ↔ name ≠ "" ∧ ∀ ch ∈ name.toList, isIdentifierChar ch = true := by
  simp [isIdentifier]

/-- The names of a schema in the order in which they are checked. -/
def settings (s : Schema) : List (Setting × String) :=
  (.documentColumn, s.documentColumn) :: (.textSearchConfig, s.textSearchConfig) ::
    s.columns.names.map fun c => (.relationalColumn, c)

/-- The first name that is not an identifier. -/
def firstInvalid? (s : Schema) : Option (Setting × String) :=
  s.settings.find? fun n => !isIdentifier n.2

/-- Every name of the schema is an identifier. -/
def Valid (s : Schema) : Prop := s.firstInvalid? = none

theorem valid_iff {s : Schema} :
    s.Valid ↔ isIdentifier s.documentColumn = true ∧ isIdentifier s.textSearchConfig = true ∧
      ∀ c ∈ s.columns, isIdentifier c = true := by
  simp [Valid, firstInvalid?, settings, List.find?_eq_none, Columns.mem_def]

instance (s : Schema) : Decidable s.Valid := inferInstanceAs (Decidable (_ = none))

theorem default_valid : default.Valid := by decide +kernel

def toJson (s : Schema) : Json :=
  .obj [("relational_columns", .arr (s.columns.names.map .str)),
    ("document_column", .str s.documentColumn),
    ("text_search_config", .str s.textSearchConfig)]

end Schema

end RowFilter
