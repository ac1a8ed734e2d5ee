import RowFilter.Calendar.Reader
import RowFilter.Json.Tagged
import RowFilter.Value.Basic

namespace RowFilter.Value

open Json (Reader Problem Alternative Alternatives)

def toTagged : Value → Json
  | .int32 n => .obj [("Int32", .ofInt n.toInt)]
  | .int64 n => .obj [("Int", .ofInt n.toInt)]
  | .uint32 n => .obj [("Uint32", .ofNat n.toNat)]
  | .uint64 n => .obj [("Uint", .ofNat n.toNat)]
  | .float x => .obj [("Float", (Value.float x).toJson)]
  | .string s => .obj [("String", .str s)]
  | .bool b => .obj [("Boolean", .bool b)]
  | .json j => .obj [("Json", j)]
  | .uuid u => .obj [("Uuid", .str u.text)]
  | .bytes bs => .obj [("Bytes", .arr (bs.map fun b => .ofNat b.toNat))]
  | .date d => .obj [("Date", .str d.text)]
  | .timestamp t => .obj [("Timestamp", .str t.rfc3339)]
  | .null => .str "Null"

/-- A string that has to be readable by `parse`. -/
def textual {α : Type} (wanted : String) (parse : String → Option α) : Reader α := fun ts => do
  let (s, ts) ← Json.string wanted ts
  match parse s with
  | some a => return (a, ts)
  | none => .error (.mismatch .unreadable)

/-- The kinds in the order in which a message lists them. -/
def kinds : Alternatives Value :=
  [("Int32", .holding (Json.integer (-0x80000000) 0x7fffffff "i32") fun n => .int32 (Int32.ofInt n)),
    ("Int", .holding (Json.integer (-0x8000000000000000) 0x7fffffffffffffff "i64") fun n =>
      .int64 (Int64.ofInt n)),
    ("Uint32", .holding (Json.integer 0 0xffffffff "u32") fun n => .uint32 (UInt32.ofNat n.toNat)),
    ("Uint", .holding (Json.integer 0 0xffffffffffffffff "u64") fun n =>
      .uint64 (UInt64.ofNat n.toNat)),
    ("Float", .holding (Json.binary64 "f64") .float),
    ("String", .holding (Json.string "a string") .string),
    ("Boolean", .holding (Json.boolean "a boolean") .bool),
    ("Json", .holding (Json.value (Json.depthLimit - 1)) .json),
    ("Uuid", .holding (textual "a formatted UUID string" Uuid.parse?) .uuid),
    ("Bytes", .holding (Json.list (Json.integer 0 255 "u8") "a sequence") fun ns =>
      .bytes (ns.map fun n => UInt8.ofNat n.toNat)),
    ("Date", .holding (textual "a formatted date string" Date.parse?) .date),
    ("Timestamp",
      .holding (textual "an RFC 3339 formatted date and time string" Timestamp.parse?) .timestamp),
    ("Null", .plain .null)]

def ofTagged (s : String) : Except Problem Value := Json.readAll (Json.tagged kinds true) s

end RowFilter.Value
