import RowFilter.Proofs.Binary64.Plain
import RowFilter.Proofs.Value.Json

/-!
# The text of a constant inside a document

A constant that a filter may hold is a scalar inside a document, unless it is a
number that is not finite. Its text is that scalar: parsed again it is the same
integer, string or boolean, and a number with a fraction is written without an
exponent. So no string is mistaken for a number or a boolean that looks like it.

* `Value.DenotedBy`: what a text denotes, by the kinds of constants;
* `Value.documentText?_denotes`: the constants that have a text, and what their
  texts denote.
-/

namespace RowFilter.Value

/-- The integer that a number of an integral kind is. -/
def integer? : Value → Option Int
  | .int32 n => some n.toInt
  | .int64 n => some n.toInt
  | .uint32 n => some n.toNat
  | .uint64 n => some n.toNat
  | _ => none

def isNumber : Value → Bool
  | .float _ => true
  | v => v.integer?.isSome

/-- A text denotes a value inside a document: an integer, a string or a boolean is what the text is
parsed as, and a number with a fraction is what a numeral without exponent is rounded to. -/
structure DenotedBy (v : Value) (text : String) : Prop where
  integer : ∀ n, v.integer? = some n → ∃ j, Json.parse text = .ok j ∧
    ((∃ m : Int64, ofJson j = .int64 m ∧ m.toInt = n) ∨
      ∃ m : UInt64, ofJson j = .uint64 m ∧ (m.toNat : Int) = n)
  string : ∀ s, v = .string s → ∃ j, Json.parse text = .ok j ∧ ofJson j = .string s
  bool : ∀ b, v = .bool b → ∃ j, Json.parse text = .ok j ∧ ofJson j = .bool b
  float : ∀ x, v = .float x → ∃ n : Json.Numeral, n.IsPlain ∧ text.toList = n.written ∧
    Json.Numeral.scan text.toList = .ok (n, []) ∧ n.nearest = x

variable {v w : Value} {text : String}

theorem fits_of_integer? {n : Int} (integer : v.integer? = some n) :
    -0x8000000000000000 ≤ n ∧ n < 0x10000000000000000 := by
  cases v with
  | int32 m =>
    have := m.le_toInt
    have := m.toInt_lt
    cases integer
    omega
  | int64 m =>
    have := m.le_toInt
    have := m.toInt_lt
    cases integer
    omega
  | uint32 m =>
    have := m.toNat_lt
    cases integer
    omega
  | uint64 m =>
    have := m.toNat_lt
    cases integer
    omega
  | _ => cases integer

theorem documentText?_integer {n : Int} (integer : v.integer? = some n) :
    v.documentText? = some (String.ofList (Text.integer n)) := by
  cases v with
  | int32 | int64 | uint32 | uint64 =>
    cases integer
    rfl
  | _ => cases integer

theorem isSome_documentText?_iff : v.documentText?.isSome = true ↔
    v.isPrimitive = true ∧ ∀ x, v = .float x → x.isFinite = true := by
  cases v with
  | float x => simp [documentText?, isPrimitive]
  | _ => simp [documentText?, isPrimitive]

theorem parse_documentText? {j : Json} (scalar : j.isScalar = true) (whole : j.holdsFloat = false)
    (written : (ofJson j).documentText? = some text) : Json.parse text = .ok j := by
  rw [documentText?_ofJson scalar whole, Option.some.injEq] at written
  obtain ⟨ordered, shallow⟩ := Json.simple_of_isScalar scalar
  rw [← written]
  exact Json.parse_text whole ordered (by omega)

theorem denotedBy_documentText? (written : v.documentText? = some text) : v.DenotedBy text where
  integer n integer := by
    have fits := fits_of_integer? integer
    have scalar : (ofJson (.num (.int n fits))).documentText? = some text := by
      rw [← written, documentText?_integer integer]
      exact documentText?_ofJson rfl rfl
    exact ⟨_, parse_documentText? rfl rfl scalar, ofJson_int n fits⟩
  string s same := by
    subst same
    exact ⟨.str s, parse_documentText? rfl rfl written, rfl⟩
  bool b same := by
    subst same
    exact ⟨.bool b, parse_documentText? rfl rfl written, rfl⟩
  float x same := by
    subst same
    have finite := (isSome_documentText?_iff.1 (Option.isSome_of_eq_some written)).2 x rfl
    obtain ⟨n, plain, digits, nearest⟩ := Binary64.plainText_spec finite
    rw [documentText?_float finite, Option.some.injEq] at written
    rw [written] at digits
    have stops : Json.Stops [] := nofun
    have read := Json.Numeral.scan_written plain stops
    rw [List.append_nil, ← digits] at read
    exact ⟨n, plain, digits, read, nearest⟩

/-! ## Constants of one text -/

/-- A string or a boolean is told by its text. -/
theorem parse_of_not_isNumber (written : v.documentText? = some text) (other : v.isNumber = false) :
    ∃ j, Json.parse text = .ok j ∧ ofJson j = v := by
  cases v with
  | string s => exact (denotedBy_documentText? written).string s rfl
  | bool b => exact (denotedBy_documentText? written).bool b rfl
  | int32 | int64 | uint32 | uint64 | float => cases other
  | _ => cases written

/-- A number begins with a sign or a digit, and nothing else does. -/
theorem documentText?_begins (written : v.documentText? = some text) :
    ∃ c cs, text.toList = c :: cs ∧ (v.isNumber = true ↔ c = '-' ∨ c.isDigit = true) := by
  cases v with
  | int32 | int64 | uint32 | uint64 =>
    rw [documentText?_integer rfl, Option.some.injEq] at written
    obtain ⟨c, cs, digits, begins⟩ := Json.integer_eq_cons _
    exact ⟨c, cs, by rw [← written, String.toList_ofList, digits], fun _ => begins, fun _ => rfl⟩
  | float x =>
    obtain ⟨n, plain, digits, -⟩ := (denotedBy_documentText? written).float x rfl
    obtain ⟨c, cs, unsigned, begins⟩ := Json.Numeral.written_eq_cons plain
    exact ⟨c, cs, by rw [digits, unsigned], fun _ => begins, fun _ => rfl⟩
  | string s =>
    cases written
    exact ⟨'"', _, String.toList_ofList, nofun, fun begins => absurd begins (by decide)⟩
  | bool b =>
    cases written
    cases b with
    | true => exact ⟨'t', ['r', 'u', 'e'], rfl, nofun, by decide⟩
    | false => exact ⟨'f', ['a', 'l', 's', 'e'], rfl, nofun, by decide⟩
  | _ => cases written

/-- Only numbers share a text. -/
theorem eq_or_isNumber (written : v.documentText? = some text) (other : w.documentText? = some text) :
    v = w ∨ v.isNumber = true ∧ w.isNumber = true := by
  obtain ⟨c, cs, begins, number⟩ := documentText?_begins written
  obtain ⟨d, ds, begins', number'⟩ := documentText?_begins other
  obtain ⟨rfl, -⟩ := List.cons.inj (begins.symm.trans begins')
  rw [← number] at number'
  cases kind : v.isNumber with
  | true => exact .inr ⟨rfl, number'.2 kind⟩
  | false =>
    have kind' : w.isNumber = false := by
      rw [Bool.eq_false_iff, ne_eq, number', kind]
      exact Bool.false_ne_true
    obtain ⟨j, parsed, same⟩ := parse_of_not_isNumber written kind
    obtain ⟨k, parsed', same'⟩ := parse_of_not_isNumber other kind'
    obtain rfl := Except.ok.inj (parsed.symm.trans parsed')
    exact .inl (same.symm.trans same')

/-- **A constant inside a document is one scalar.** The constants that a filter may hold have a text,
but for numbers that are not finite; the text denotes the constant; and constants of one text are the
same or are both numbers. -/
theorem documentText?_denotes :
    (∀ v : Value, v.documentText?.isSome = true ↔
      v.isPrimitive = true ∧ ∀ x, v = .float x → x.isFinite = true) ∧
    (∀ (v : Value) text, v.documentText? = some text → v.DenotedBy text) ∧
    ∀ (v w : Value) text, v.documentText? = some text → w.documentText? = some text →
      v = w ∨ v.isNumber = true ∧ w.isNumber = true := by
  refine ⟨?_, ?_, ?_⟩
  · intro v
    exact isSome_documentText?_iff
  · intro v text written
    exact denotedBy_documentText? written
  · intro v w text written other
    exact eq_or_isNumber written other

/-- A string that looks like a number keeps its quotes. -/
theorem documentText?_denotes_quoted :
    (∃ j, Json.parse "\"40\"" = .ok j ∧ ofJson j = .string "40") ∧
      (Value.int64 40).documentText? ≠ (Value.string "40").documentText? := by
  have quoted : (Value.string "40").documentText? = some "\"40\"" := by decide +kernel
  refine ⟨(documentText?_denotes.2.1 _ _ quoted).string "40" rfl, ?_⟩
  intro same
  rcases documentText?_denotes.2.2 _ _ _ (same.trans quoted) quoted with equal | ⟨-, number⟩
  · cases equal
  · cases number

end RowFilter.Value
