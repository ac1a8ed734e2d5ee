import RowFilter.Calendar.Text
import RowFilter.Json.Printer
import RowFilter.Uuid

/-! The constants that a filter compares with. Only numbers, strings and booleans are `isPrimitive`;
the other kinds can be written down, and a compiler reports them. -/

namespace RowFilter

inductive Value
  | int32 (n : Int32)
  | int64 (n : Int64)
  | uint32 (n : UInt32)
  | uint64 (n : UInt64)
  | float (x : Binary64)
  | string (s : String)
  | bool (b : Bool)
  | json (j : Json)
  | uuid (u : Uuid)
  | bytes (bs : List UInt8)
  | date (d : Date)
  | timestamp (t : Timestamp)
  | null
  deriving Repr

namespace Value

def kind : Value → String
  | .int32 _ => "int32"
  | .int64 _ => "int64"
  | .uint32 _ => "uint32"
  | .uint64 _ => "uint64"
  | .float _ => "float64"
  | .string _ => "string"
  | .bool _ => "bool"
  | .json _ => "json"
  | .uuid _ => "uuid"
  | .bytes _ => "bytes"
  | .date _ => "date"
  | .timestamp _ => "timestamp"
  | .null => "null"

/-- Whether a literal of a filter may hold the value. -/
def isPrimitive : Value → Bool
  | .int32 _ | .int64 _ | .uint32 _ | .uint64 _ | .float _ | .string _ | .bool _ => true
  | _ => false

def string? : Value → Option String
  | .string s => some s
  | _ => none

/-- The text shown to a person. -/
def text : Value → String
  | .int32 n => String.ofList (Text.integer n.toInt)
  | .int64 n => String.ofList (Text.integer n.toInt)
  | .uint32 n => String.ofList (Text.natural n.toNat)
  | .uint64 n => String.ofList (Text.natural n.toNat)
  | .float x => x.plainText
  | .string s => s
  | .bool b => String.ofList (Json.boolText b)
  | .json j => j.text
  | .uuid u => u.text
  | .bytes bs => String.ofList ('\\' :: 'x' :: Text.Hex.encode bs)
  | .date d => d.text
  | .timestamp t => t.text
  | .null => "NULL"

/-- Equality of values of one kind; numbers compare as numbers, so that NaN differs from itself. -/
def equal : Value → Value → Bool
  | .int32 a, .int32 b => a == b
  | .int64 a, .int64 b => a == b
  | .uint32 a, .uint32 b => a == b
  | .uint64 a, .uint64 b => a == b
  | .float a, .float b => a.equal b
  | .string a, .string b => a == b
  | .bool a, .bool b => a == b
  | .json a, .json b => a.equal b
  | .uuid a, .uuid b => a == b
  | .bytes a, .bytes b => a == b
  | .date a, .date b => a == b
  | .timestamp a, .timestamp b => a == b
  | .null, .null => true
  | _, _ => false

/-! ## JSON -/

/-- A scalar becomes the smallest kind that holds it; lists and objects are kept whole. -/
def ofJson : Json → Value
  | .null => .null
  | .bool b => .bool b
  | .str s => .string s
  | .num (.int n _) =>
    if n < 0x8000000000000000 then .int64 (Int64.ofInt n) else .uint64 (UInt64.ofNat n.toNat)
  | .num (.float x _) => .float x
  | .arr items => .json (.arr items)
  | .obj members => .json (.obj members)

/-- The value in a report. Kinds that JSON lacks become strings, and what no number can express
becomes null. -/
def toJson : Value → Json
  | .int32 n => .ofInt n.toInt
  | .int64 n => .ofInt n.toInt
  | .uint32 n => .ofNat n.toNat
  | .uint64 n => .ofNat n.toNat
  | .float x => ((Number.ofBinary64? x).map .num).getD .null
  | .string s => .str s
  | .bool b => .bool b
  | .json j => j
  | .uuid u => .str u.text
  | .bytes bs => .str (String.ofList (Text.Hex.encode bs))
  | .date d => .str d.text
  | .timestamp t => .str t.rfc3339
  | .null => .null

/-- The text of the JSON scalar that equals the value inside a document. A string is quoted, so
that the string of a number and the number stay apart. -/
def documentText? : Value → Option String
  | .float x => if x.isFinite then some x.plainText else none
  | .int32 n => some (String.ofList (Text.integer n.toInt))
  | .int64 n => some (String.ofList (Text.integer n.toInt))
  | .uint32 n => some (String.ofList (Text.natural n.toNat))
  | .uint64 n => some (String.ofList (Text.natural n.toNat))
  | .string s => some (String.ofList (Json.quote s))
  | .bool b => some (String.ofList (Json.boolText b))
  | _ => none

end Value

end RowFilter
