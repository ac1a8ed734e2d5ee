import Mathlib.Tactic.SplitIfs

namespace RowFilter.Text

def bytes (s : String) : List UInt8 := s.toUTF8.data.toList

theorem bytes_eq (s : String) : bytes s = s.toList.flatMap String.utf8EncodeChar := by
  rw [bytes, String.toUTF8_eq_toByteArray, ← String.utf8Encode_toList, List.utf8Encode,
    List.toList_data_toByteArray]

/-- Of two numbers in base 64, the greater one is so before its last digit or in it. -/
theorem base64_lt {m n : Nat} (lt : m < n) :
    m / 64 < n / 64 ∨ m / 64 = n / 64 ∧ m % 64 < n % 64 := by
  omega

/-- Of two numbers in base 64, the greater one has the greater digit where they first differ. -/
theorem digits_lt {m n : Nat} (lt : m < n) :
    m / 262144 < n / 262144 ∨ m / 262144 = n / 262144 ∧
      (m / 4096 % 64 < n / 4096 % 64 ∨ m / 4096 % 64 = n / 4096 % 64 ∧
        (m / 64 % 64 < n / 64 % 64 ∨ m / 64 % 64 = n / 64 % 64 ∧ m % 64 < n % 64)) := by
  rcases base64_lt lt with lt | ⟨same, last⟩
  · rcases base64_lt lt with lt | ⟨same, last⟩
    · rcases base64_lt lt with lt | ⟨same, last⟩ <;> omega
    · omega
  · omega

/-- Of two characters the later one has the later bytes, whatever follows. -/
theorem utf8EncodeChar_lt {c d : Char} (lt : c < d) (cs ds : List UInt8) :
    String.utf8EncodeChar c ++ cs < String.utf8EncodeChar d ++ ds := by
  have lt : c.val.toNat < d.val.toNat := lt
  have last : d.val.toNat < 0x110000 := by
    rcases d.valid with low | ⟨-, high⟩
    · exact Nat.lt_trans low (by decide)
    · exact high
  unfold String.utf8EncodeChar
  generalize c.val.toNat = m at lt
  generalize d.val.toNat = n at lt last
  have digits := digits_lt lt
  -- one case for each pair of lengths; the longer row always begins with the greater byte
  dsimp only
  split_ifs
  all_goals
    simp only [List.cons_append, List.nil_append, List.cons_lt_cons_iff, UInt8.lt_iff_toNat_lt,
      ← UInt8.toNat_inj, UInt8.toNat_ofNat']
    simp (disch := omega) only [Nat.mod_eq_of_lt]
    omega

theorem flatMap_utf8EncodeChar_lt {cs ds : List Char} (lt : cs < ds) :
    cs.flatMap String.utf8EncodeChar < ds.flatMap String.utf8EncodeChar := by
  induction lt with
  | nil =>
    obtain ⟨byte, others, some⟩ := List.exists_cons_of_ne_nil (String.utf8EncodeChar_ne_nil)
    rw [List.flatMap_nil, List.flatMap_cons, some]
    exact List.nil_lt_cons ..
  | rel lt => exact utf8EncodeChar_lt lt _ _
  | cons _ ih => exact List.append_left_lt ih

/-- **Strings are ordered by their bytes.** -/
theorem lt_iff_bytes {a b : String} : a < b ↔ bytes a < bytes b := by
  rw [bytes_eq, bytes_eq, String.lt_iff]
  constructor
  · exact flatMap_utf8EncodeChar_lt
  · intro lt
    rcases Std.lt_trichotomy a.toList b.toList with before | same | after
    · exact before
    · rw [same] at lt
      exact absurd lt (List.lt_irrefl _)
    · exact absurd (flatMap_utf8EncodeChar_lt after) (List.lt_asymm lt)

end RowFilter.Text
