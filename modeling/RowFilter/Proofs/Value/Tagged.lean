import RowFilter.Proofs.Calendar.Reading
import RowFilter.Proofs.Uuid
import RowFilter.Proofs.Value.Json
import RowFilter.Value.Tagged

/-!
# Tagged values read back

The tag of a value says which reader its content is for, and every content is
read back by the reader of its kind. A number with a fraction is not among them:
it may be read as one of its neighbours. A timestamp comes back settled, with a
leap second nowhere but at the end of a minute.

* `Value.settle`: what a value is read back as;
* `Value.reads_toTagged`, `Value.ofTagged_toTagged_settle`: its tokens are read as
  that, and so is its text;
* `Value.ofTagged_toTagged`: which values are read back as they are.
-/

namespace RowFilter

namespace Json

/-- An integer is read back where the range allows it. -/
theorem reads_integer {least most n : Int}
    (fits : -0x8000000000000000 ≤ n ∧ n < 0x10000000000000000) (inside : least ≤ n ∧ n ≤ most)
    (wanted : String) : Reads (integer least most wanted) (ofInt n).spelling n := by
  intro rest
  rw [ofInt_of_fits fits]
  exact if_pos inside

theorem holdsFloat_ofInt (n : Int) : (ofInt n).holdsFloat = false := by
  unfold ofInt Number.ofInt?
  split <;> rfl

end Json

namespace Value

open Json (Reads)

/-- Whether a number with a fraction is or occurs in the value. -/
def holdsFloat : Value → Bool
  | .float _ => true
  | .json j => j.holdsFloat
  | _ => false

/-- The value that the text of a value denotes. -/
def settle : Value → Value
  | .timestamp t => .timestamp t.settle
  | v => v

theorem settle_eq_self_iff {v : Value} : v.settle = v ↔ ∀ t, v = .timestamp t → t.Settled := by
  cases v with
  | timestamp t =>
    constructor
    · rintro same _ ⟨rfl⟩
      exact Timestamp.settle_eq_self_iff.1 (Value.timestamp.inj same)
    · intro settled
      exact congrArg timestamp (Timestamp.settle_of_settled (settled t rfl))
  | _ => exact iff_of_true rfl fun _ same => nomatch same

theorem reads_textual {α : Type} {parse : String → Option α} {s : String} {a : α}
    (read : parse s = some a) (wanted : String) :
    Reads (textual wanted parse) (Json.str s).spelling a := by
  intro rest
  have found : Json.string wanted (.str s :: rest) = .ok (s, rest) := rfl
  simp only [textual, Json.spelling, List.cons_append, List.nil_append, found, bind, Except.bind,
    read]
  rfl

theorem reads_bytes (bs : List UInt8) :
    Reads (Json.list (Json.integer 0 255 "u8") "a sequence")
      (Json.arr (bs.map fun b => Json.ofNat b.toNat)).spelling
      (bs.map fun b => (b.toNat : Int)) := by
  have parts : ∀ n ∈ bs.map fun b => (b.toNat : Int),
      Reads (Json.integer 0 255 "u8") (Json.ofInt n).spelling n := by
    intro n mem
    obtain ⟨b, -, rfl⟩ := List.mem_map.1 mem
    have := b.toNat_lt
    exact Json.reads_integer (by omega) (by omega) _
  have same : (bs.map fun b => (b.toNat : Int)).map Json.ofInt =
      bs.map fun b => Json.ofNat b.toNat := by
    simp only [List.map_map, Function.comp_def, Json.ofNat]
  rw [← same]
  exact Json.reads_list parts "a sequence"

theorem reads_number (tag : String) (n : Int) {least most : Int} {wanted : String}
    {make : Int → Value} {v : Value}
    (found : kinds.find tag = .ok (.holding (Json.integer least most wanted) make))
    (fits : -0x8000000000000000 ≤ n ∧ n < 0x10000000000000000) (inside : least ≤ n ∧ n ≤ most)
    (back : make n = v) :
    Reads (Json.tagged kinds true) (Json.obj [(tag, .ofInt n)]).spelling v := by
  rw [← back]
  exact Json.reads_tagged found (Json.reads_holding (Json.reads_integer fits inside wanted) make)

/-- **The tokens of a tagged value are read as that value**, settled. -/
theorem reads_toTagged {v : Value} (whole : v.holdsFloat = false)
    (json : ∀ j, v = .json j → j.Ordered ∧ j.depth ≤ 126) :
    Reads (Json.tagged kinds true) v.toTagged.spelling v.settle := by
  cases v with
  | int32 n =>
    have range := And.intro n.le_toInt n.toInt_lt
    have back := congrArg Value.int32 n.ofInt_toInt
    exact reads_number "Int32" n.toInt rfl (by omega) (by omega) back
  | int64 n =>
    have range := And.intro n.le_toInt n.toInt_lt
    have back := congrArg Value.int64 n.ofInt_toInt
    exact reads_number "Int" n.toInt rfl (by omega) (by omega) back
  | uint32 n =>
    have range := n.toNat_lt
    have back := congrArg Value.uint32 (UInt32.ofNat_toNat (x := n))
    exact reads_number "Uint32" n.toNat rfl (by omega) (by omega) back
  | uint64 n =>
    have range := n.toNat_lt
    have back := congrArg Value.uint64 (UInt64.ofNat_toNat (x := n))
    exact reads_number "Uint" n.toNat rfl (by omega) (by omega) back
  | float x => cases whole
  | string s =>
    have reads : Reads (Json.string "a string") (Json.str s).spelling s := fun _ => rfl
    exact Json.reads_tagged rfl (Json.reads_holding reads Value.string)
  | bool b =>
    have reads : Reads (Json.boolean "a boolean") (Json.bool b).spelling b := fun _ => rfl
    exact Json.reads_tagged rfl (Json.reads_holding reads Value.bool)
  | json j =>
    obtain ⟨ordered, shallow⟩ := json j rfl
    have reads : Reads (Json.value (Json.depthLimit - 1)) j.spelling j :=
      Json.reads_value ordered shallow
    exact Json.reads_tagged rfl (Json.reads_holding reads Value.json)
  | uuid u =>
    have reads := reads_textual u.parse?_text "a formatted UUID string"
    exact Json.reads_tagged rfl (Json.reads_holding reads Value.uuid)
  | bytes bs =>
    have reads : Reads (Json.tagged kinds true) (bytes bs).toTagged.spelling
        (.bytes ((bs.map fun b => (b.toNat : Int)).map fun n => UInt8.ofNat n.toNat)) :=
      Json.reads_tagged rfl (Json.reads_holding (reads_bytes bs) _)
    have back : (bs.map fun b => (b.toNat : Int)).map (fun n => UInt8.ofNat n.toNat) = bs := by
      simp only [List.map_map, Function.comp_def, Int.toNat_natCast, UInt8.ofNat_toNat,
        List.map_id']
    rwa [back] at reads
  | date d =>
    have reads := reads_textual d.parse?_text "a formatted date string"
    exact Json.reads_tagged rfl (Json.reads_holding reads Value.date)
  | timestamp t =>
    have reads := reads_textual t.parse?_rfc3339 "an RFC 3339 formatted date and time string"
    exact Json.reads_tagged rfl (Json.reads_holding reads Value.timestamp)
  | null => exact Json.reads_bare rfl rfl true

theorem holdsFloat_toTagged {v : Value} (whole : v.holdsFloat = false) :
    v.toTagged.holdsFloat = false := by
  have member (tag : String) {content : Json} (whole : content.holdsFloat = false) :
      (Json.obj [(tag, content)]).holdsFloat = false := by
    simp [Json.holdsFloat, Json.holdsFloatMembers, whole]
  cases v with
  | int32 n | int64 n | uint32 n | uint64 n => exact member _ (Json.holdsFloat_ofInt _)
  | float x => cases whole
  | json j => exact member _ whole
  | bytes bs =>
    refine member _ (Json.holdsFloatItems_eq_false_iff.2 fun x mem => ?_)
    obtain ⟨b, -, rfl⟩ := List.mem_map.1 mem
    exact Json.holdsFloat_ofInt _
  | _ => rfl

/-- **A value without fractions is read back from its text**, settled, if no more than 126 brackets
are open at once in a JSON value inside it. -/
theorem ofTagged_toTagged_settle {v : Value} (whole : v.holdsFloat = false)
    (json : ∀ j, v = .json j → j.Ordered ∧ j.depth ≤ 126) :
    ofTagged v.toTagged.text = .ok v.settle := by
  have written : Json.Written v.toTagged.spelling v.toTagged.text.toList := by
    rw [Json.text, String.toList_ofList]
    exact Json.written_compact v.toTagged
  exact Json.readAll_of_written (reads_toTagged whole json)
    (Json.legible_spelling (holdsFloat_toTagged whole)) written

end Value

end RowFilter
