import Mathlib.Algebra.GroupWithZero.Nat
import RowFilter.Proofs.Text.Digits
import RowFilter.Uuid

namespace RowFilter.Uuid

/-- The first group takes as many digits as it should, and leaves those of the others. -/
theorem length_group {n : Nat} {sizes : List Nat} {cs : List Char}
    (fits : (n :: sizes).sum = cs.length) :
    (cs.take n).length = n ∧ sizes.sum = (cs.drop n).length := by
  rw [List.sum_cons] at fits
  rw [List.length_take, List.length_drop]
  omega

section
variable {sizes : List Nat} {cs : List Char} (fits : sizes.sum = cs.length)
include fits

theorem length_hyphenate : (hyphenate sizes cs).length = cs.length + (sizes.length - 1) := by
  induction sizes generalizing cs with
  | nil => rfl
  | cons n rest ih =>
    cases rest with
    | nil => rfl
    | cons m rest =>
      obtain ⟨front, others⟩ := length_group fits
      rw [List.sum_cons] at fits
      rw [hyphenate, List.length_append, List.length_cons, ih others, front, ← others]
      simp only [List.length_cons]
      omega

theorem dehyphenate?_hyphenate : dehyphenate? sizes (hyphenate sizes cs) = some cs := by
  induction sizes generalizing cs with
  | nil => rfl
  | cons n rest ih =>
    cases rest with
    | nil => rfl
    | cons m rest =>
      obtain ⟨front, others⟩ := length_group fits
      rw [hyphenate, dehyphenate?, List.drop_left' front, List.take_left' front]
      simp only [ih others, Option.map_some, List.take_append_drop]

end

theorem ofDigits?_hexDigits (u : Uuid) : ofDigits? (Text.hexDigits 32 u.number) = some u := by
  have read : Text.hexNumber? (Text.hexDigits 32 u.number) = some u.number :=
    Text.hexNumber?_hexDigits u.bounded
  have known : ofNat? u.number = some u := dif_pos u.bounded
  rw [ofDigits?, if_neg (by simp [Text.length_hexDigits]), read]
  exact known

/-- **Every identifier is read back from its text.** -/
theorem parse?_text (u : Uuid) : parse? u.text = some u := by
  have fits : groups.sum = (Text.hexDigits 32 u.number).length := by
    rw [Text.length_hexDigits]
    rfl
  have length : (hyphenate groups (Text.hexDigits 32 u.number)).length = 36 := by
    rw [length_hyphenate fits, Text.length_hexDigits]
    rfl
  have read : ofHyphenated? (hyphenate groups (Text.hexDigits 32 u.number)) = some u := by
    rw [ofHyphenated?, if_neg (not_not_intro length), dehyphenate?_hyphenate fits,
      Option.bind_some, ofDigits?_hexDigits]
  rw [parse?, text, String.toList_ofList]
  simp only [length, read]
  rfl

end RowFilter.Uuid
