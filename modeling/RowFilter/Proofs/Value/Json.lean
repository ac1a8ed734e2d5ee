import RowFilter.Proofs.Json.Printing
import RowFilter.Value.Basic

namespace RowFilter

namespace Json

def isScalar : Json → Bool
  | .str _ | .bool _ | .num _ => true
  | _ => false

theorem ofInt_of_fits {n : Int} (fits : -0x8000000000000000 ≤ n ∧ n < 0x10000000000000000) :
    ofInt n = .num (.int n fits) := by
  simp [ofInt, Number.ofInt?, fits]

theorem simple_of_isScalar {j : Json} (scalar : j.isScalar = true) : j.Ordered ∧ j.depth = 0 := by
  match j, scalar with
  | .str _, _ | .bool _, _ | .num _, _ => exact ⟨trivial, rfl⟩

theorem eq_float_of_isScalar {j : Json} (scalar : j.isScalar = true) (broken : j.holdsFloat = true) :
    ∃ x finite, j = .num (.float x finite) := by
  cases j with
  | num n =>
    cases n with
    | int n fits => cases broken
    | float x finite => exact ⟨x, finite, rfl⟩
  | str s => cases broken
  | bool b => cases broken
  | _ => cases scalar

/-- **The printed form of a value without fractions is parsed as that value.** -/
theorem parse_text {j : Json} (whole : j.holdsFloat = false) (ordered : j.Ordered)
    (shallow : j.depth ≤ depthLimit) : parse j.text = .ok j := by
  have written : Written j.spelling j.text.toList := by
    rw [text, String.toList_ofList]
    exact written_compact j
  exact parse_of_written written whole ordered shallow

end Json

namespace Value

/-- An integer of sixty-four bits keeps its value in the kind it is given. -/
theorem ofJson_int (n : Int) (fits : -0x8000000000000000 ≤ n ∧ n < 0x10000000000000000) :
    (∃ m : Int64, ofJson (.num (.int n fits)) = .int64 m ∧ m.toInt = n) ∨
      ∃ m : UInt64, ofJson (.num (.int n fits)) = .uint64 m ∧ (m.toNat : Int) = n := by
  by_cases signed : n < 0x8000000000000000
  · left
    refine ⟨Int64.ofInt n, if_pos signed, Int64.toInt_ofInt_of_le fits.1 signed⟩
  · right
    have small : n.toNat < UInt64.size := by
      have : n < 0x10000000000000000 := fits.2
      show n.toNat < 18446744073709551616
      omega
    refine ⟨UInt64.ofNat n.toNat, if_neg signed, ?_⟩
    rw [UInt64.toNat_ofNat_of_lt' small]
    omega

/-- **A value of a document is reported unchanged.** -/
theorem toJson_ofJson (j : Json) : (ofJson j).toJson = j := by
  match j with
  | .null | .bool _ | .str _ | .arr _ | .obj _ => rfl
  | .num (.float x finite) => simp [ofJson, toJson, Number.ofBinary64?, finite]
  | .num (.int n fits) =>
    obtain ⟨m, kind, same⟩ | ⟨m, kind, same⟩ := ofJson_int n fits
    · rw [kind, toJson, same, Json.ofInt_of_fits fits]
    · rw [kind, toJson, Json.ofNat, same, Json.ofInt_of_fits fits]

theorem isPrimitive_ofJson (j : Json) : (ofJson j).isPrimitive = j.isScalar := by
  match j with
  | .null | .bool _ | .str _ | .arr _ | .obj _ | .num (.float _ _) => rfl
  | .num (.int n fits) =>
    obtain ⟨m, kind, -⟩ | ⟨m, kind, -⟩ := ofJson_int n fits
    · rw [kind]; rfl
    · rw [kind]; rfl

theorem documentText?_ofJson {j : Json} (scalar : j.isScalar = true) (whole : j.holdsFloat = false) :
    (ofJson j).documentText? = some j.text := by
  match j, scalar, whole with
  | .bool _, _, _ | .str _, _, _ => rfl
  | .num (.int n fits), _, _ =>
    obtain ⟨m, kind, same⟩ | ⟨m, kind, same⟩ := ofJson_int n fits
    · rw [kind, documentText?, same]
      rfl
    · have natural : Text.integer (m.toNat : Int) = Text.natural m.toNat := rfl
      rw [kind, documentText?, ← natural, same]
      rfl

theorem documentText?_float {x : Binary64} (finite : x.isFinite = true) :
    (float x).documentText? = some x.plainText := if_pos finite

/-! ## Constants that a document holds -/

/-- Whether a value of a document becomes this constant: an integer of the signed kind, or of the
unsigned one where the signed one ends, a finite number, a string, a boolean, `null`, a list or an
object. -/
def comesFromJson : Value → Bool
  | .int64 _ | .string _ | .bool _ | .null | .json (.arr _) | .json (.obj _) => true
  | .uint64 n => 0x7fffffffffffffff < n.toNat
  | .float x => x.isFinite
  | _ => false

theorem comesFromJson_ofJson (j : Json) : (ofJson j).comesFromJson = true := by
  match j with
  | .null | .bool _ | .str _ | .arr _ | .obj _ => rfl
  | .num (.float x finite) => exact finite
  | .num (.int n fits) =>
    by_cases signed : n < 0x8000000000000000
    · rw [ofJson, if_pos signed, comesFromJson]
    · have small : n.toNat < UInt64.size := by
        show n.toNat < 18446744073709551616
        omega
      rw [ofJson, if_neg signed, comesFromJson, UInt64.toNat_ofNat_of_lt' small, decide_eq_true_eq]
      omega

theorem exists_ofJson_eq {v : Value} (h : v.comesFromJson = true) : ∃ j, ofJson j = v := by
  cases v with
  | int64 n =>
    have range := And.intro n.le_toInt n.toInt_lt
    refine ⟨.num (.int n.toInt (by omega)), ?_⟩
    rw [ofJson, if_pos (by omega), Int64.ofInt_toInt]
  | uint64 n =>
    have range := n.toNat_lt
    have above : ¬(n.toNat : Int) < 0x8000000000000000 := by
      rw [comesFromJson, decide_eq_true_eq] at h
      omega
    refine ⟨.num (.int n.toNat (by omega)), ?_⟩
    rw [ofJson, if_neg above, Int.toNat_natCast, UInt64.ofNat_toNat]
  | float x => exact ⟨.num (.float x h), rfl⟩
  | string s => exact ⟨.str s, rfl⟩
  | bool b => exact ⟨.bool b, rfl⟩
  | json j =>
    cases j with
    | arr items => exact ⟨.arr items, rfl⟩
    | obj members => exact ⟨.obj members, rfl⟩
    | _ => cases h
  | null => exact ⟨.null, rfl⟩
  | _ => cases h

/-- **Documents and constants meet in the constants that a document holds.** Every value of a document
is reported as itself, numbers bit by bit; and a constant is what its report becomes exactly if it is
one of those that come from a document. -/
theorem ofJson_toJson_iff :
    (∀ j : Json, (ofJson j).toJson = j) ∧
      ∀ v : Value, ofJson v.toJson = v ↔ v.comesFromJson = true := by
  refine ⟨toJson_ofJson, ?_⟩
  intro v
  constructor
  · intro same
    rw [← same]
    exact comesFromJson_ofJson v.toJson
  · intro held
    obtain ⟨j, rfl⟩ := exists_ofJson_eq held
    rw [toJson_ofJson]

end Value

end RowFilter
