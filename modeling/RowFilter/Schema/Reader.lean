import RowFilter.Binary64.Text
import RowFilter.File
import RowFilter.Mismatch
import RowFilter.Schema.Basic
import RowFilter.Toml.Reader

namespace RowFilter.Schema

/-- Why a text is not a schema. -/
inductive ParseError
  | notToml
  | mismatch (m : Mismatch)
  deriving DecidableEq, Repr

inductive Error
  | file (path : String) (why : FileError)
  | parse (why : ParseError)
  | invalidIdentifier (setting : Setting) (value : String)
  deriving DecidableEq, Repr

def keys : List String := ["relational_columns", "document_column", "text_search_config"]

/-- An item as it is named in a message. -/
def found : Toml.Item → Found
  | .string s => .text s
  | .integer n => .integer n
  | .float x => .floatingPoint x.pointedText
  | .boolean b => .boolean b
  | .dateTime => .table
  | .array _ => .list
  | .table _ _ => .table
  | .tables _ => .list

def stringItem : Toml.Item → Except Mismatch String
  | .string s => .ok s
  | item => .error (.wrongType (found item) "a string")

/-- The strings of an array; the tables of a repeated header are no strings. -/
def stringItems : Toml.Item → Except Mismatch (List String)
  | .array items => items.mapM stringItem
  | .tables elements => elements.mapM fun es => stringItem (.table .header es)
  | item => .error (.wrongType (found item) "a sequence")

/-- The schema with one key set. -/
def withEntry (s : Schema) (entry : String × Toml.Item) : Except Mismatch Schema :=
  if entry.1 = "relational_columns" then
    (stringItems entry.2).map fun names => { s with columns := .ofList names }
  else if entry.1 = "document_column" then
    (stringItem entry.2).map fun name => { s with documentColumn := name }
  else if entry.1 = "text_search_config" then
    (stringItem entry.2).map fun name => { s with textSearchConfig := name }
  else .error (.unknownField entry.1 keys)

/-- The schema that the keys of a document describe. -/
def ofEntries (es : Toml.Entries) : Except Mismatch Schema := es.foldlM withEntry default

/-- Refuses a schema with a name that is no identifier. -/
def check (s : Schema) : Except Error Schema :=
  match s.firstInvalid? with
  | some (setting, value) => .error (.invalidIdentifier setting value)
  | none => .ok s

theorem check_eq_ok_iff {s s' : Schema} : check s = .ok s' ↔ s = s' ∧ s.Valid := by
  unfold check Valid
  cases s.firstInvalid? <;> simp

def ofToml (source : String) : Except Error Schema :=
  match Toml.parse? source with
  | none => .error (.parse .notToml)
  | some es =>
    match ofEntries es with
    | .error m => .error (.parse (.mismatch m))
    | .ok s => check s

/-- A text is a schema if it is TOML whose keys describe one with identifiers for names. -/
theorem ofToml_eq_ok_iff {source : String} {s : Schema} :
    ofToml source = .ok s ↔
      (∃ entries, Toml.parse? source = some entries ∧ ofEntries entries = .ok s) ∧ s.Valid := by
  unfold ofToml
  cases Toml.parse? source with
  | none => simp
  | some entries =>
    cases described : ofEntries entries with
    | error m => simp [described]
    | ok s' =>
      simp only [check_eq_ok_iff, Option.some.injEq, exists_eq_left', described, Except.ok.injEq]
      constructor
      · rintro ⟨rfl, valid⟩
        exact ⟨rfl, valid⟩
      · rintro ⟨rfl, valid⟩
        exact ⟨rfl, valid⟩

/-- The schema in a file, given what reading the file gave. -/
def ofFile (path : String) (content : Except FileError String) : Except Error Schema :=
  match content with
  | .error why => .error (.file path why)
  | .ok source => ofToml source

theorem ofFile_eq_ok_iff {path : String} {content : Except FileError String} {s : Schema} :
    ofFile path content = .ok s ↔ ∃ source, content = .ok source ∧ ofToml source = .ok s := by
  cases content <;> simp [ofFile]

/-- The message for an error; `parsing` is what the reader of TOML says, if it refused the text. -/
def Error.message (parsing : String) : Error → String
  | .file path why => "Failed to read schema file " ++ path ++ ": " ++ why.cause
  | .parse _ => "Failed to parse schema: " ++ parsing
  | .invalidIdentifier setting value =>
    "Invalid " ++ setting.text ++ " '" ++ value ++
      "': only ASCII letters, digits and '_' are allowed"

end RowFilter.Schema
