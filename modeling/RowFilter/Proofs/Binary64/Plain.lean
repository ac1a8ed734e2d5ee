import RowFilter.Binary64.Text
import RowFilter.Proofs.Binary64.Shortest
import RowFilter.Proofs.Json.Numerals

namespace RowFilter.Binary64

namespace Decimal

/-- The numeral that a decimal is written as. -/
def numeral (negative : Bool) (d : Decimal) : Json.Numeral :=
  let ds := Text.natural d.coefficient
  let places := (-d.exponent).toNat
  if 0 ≤ d.exponent then
    ⟨negative, ds ++ List.replicate d.exponent.toNat '0', [], none⟩
  else if places < ds.length then
    ⟨negative, ds.take (ds.length - places), ds.drop (ds.length - places), none⟩
  else
    ⟨negative, ['0'], List.replicate (places - ds.length) '0' ++ ds, none⟩

variable {negative : Bool} {d : Decimal}

theorem negative_numeral : (d.numeral negative).negative = negative := by
  simp only [numeral]
  split_ifs <;> rfl

theorem unsigned_numeral : (d.numeral negative).unsigned = d.plain false := by
  simp only [numeral, plain, Bool.false_eq_true, if_false]
  split_ifs with whole short
  · simp only [Json.Numeral.unsigned, if_true]
  · have behind : (Text.natural d.coefficient).drop
        ((Text.natural d.coefficient).length - (-d.exponent).toNat) ≠ [] := by
      rw [ne_eq, List.drop_eq_nil_iff]
      omega
    simp only [Json.Numeral.unsigned, if_neg behind]
  · have behind : List.replicate ((-d.exponent).toNat - (Text.natural d.coefficient).length) '0' ++
        Text.natural d.coefficient ≠ [] := by
      simp [Text.natural_ne_nil]
    simp only [Json.Numeral.unsigned, if_neg behind]
    rfl

/-- The digits around the point are those of the coefficient, up to zeros. -/
theorem naturalOf_numeral :
    Text.naturalOf ((d.numeral negative).whole ++ (d.numeral negative).fraction) =
      d.coefficient * Nat.pow 10 d.exponent.toNat := by
  simp only [numeral]
  split_ifs with whole short
  · rw [List.append_nil, Text.naturalOf, Nat.ofDigitChars_append, Nat.ofDigitChars_replicate_zero,
      Nat.mul_comm]
    exact congrArg (· * _) (Text.naturalOf_natural _)
  · have none : d.exponent.toNat = 0 := by omega
    rw [List.take_append_drop, Text.naturalOf_natural, none]
    exact (Nat.mul_one _).symm
  · have none : d.exponent.toNat = 0 := by omega
    have zeros : Text.naturalOf (['0'] ++ (List.replicate ((-d.exponent).toNat -
        (Text.natural d.coefficient).length) '0' ++ Text.natural d.coefficient)) =
          Text.naturalOf (Text.natural d.coefficient) := by
      simp [Text.naturalOf, Nat.ofDigitChars_cons, Nat.ofDigitChars_append,
        Nat.ofDigitChars_replicate_zero]
    rw [zeros, Text.naturalOf_natural, none]
    exact (Nat.mul_one _).symm

theorem length_fraction_numeral : (d.numeral negative).fraction.length = (-d.exponent).toNat := by
  simp only [numeral]
  split_ifs with whole short
  · rw [List.length_nil]
    omega
  · rw [List.length_drop]
    omega
  · rw [List.length_append, List.length_replicate]
    omega

/-- A zero is not scaled up, so that no digit follows it. -/
theorem isPlain_numeral (normal : d.coefficient = 0 → d.exponent ≤ 0) :
    (d.numeral negative).IsPlain := by
  simp only [numeral]
  split_ifs with whole short
  · refine ⟨Json.Numeral.isWhole_scaled ?_, nofun, rfl⟩
    intro none
    have := normal none
    omega
  · refine ⟨Json.Numeral.isWhole_take (by omega), ?_, rfl⟩
    intro c mem
    exact Text.isDigit_of_mem_natural (List.mem_of_mem_drop mem)
  · refine ⟨Json.Numeral.isWhole_natural 0, ?_, rfl⟩
    intro c mem
    rcases List.mem_append.1 mem with zero | own
    · exact Json.Numeral.isDigit_of_mem_zeros zero
    · exact Text.isDigit_of_mem_natural own

end Decimal

variable {x : Binary64}

theorem ofMagnitude_magnitude (x : Binary64) : ofMagnitude x.isNegative x.magnitude = x := by
  have range : x.bits.toNat < 2 * signBit := x.bits.toNat_lt
  have split : x.magnitude = x.bits.toNat % signBit := rfl
  have bits : (if x.isNegative then signBit + x.magnitude else x.magnitude) = x.bits.toNat := by
    cases sign : x.isNegative with
    | true =>
      have : signBit ≤ x.bits.toNat := of_decide_eq_true sign
      rw [if_pos rfl, split, Nat.mod_eq_sub_mod this, Nat.mod_eq_of_lt (by omega)]
      omega
    | false =>
      have : ¬signBit ≤ x.bits.toNat := of_decide_eq_false sign
      rw [if_neg Bool.false_ne_true, split, Nat.mod_eq_of_lt (by omega)]
  rw [ofMagnitude, bits, UInt64.ofNat_toNat]

/-- The decimal that a number is written as: a zero for zero, and else the shortest. -/
def laidOut (tie : Tie) (x : Binary64) : Decimal := if x.isZero then ⟨0, 0⟩ else x.shortest tie

theorem nearest_laidOut (tie : Tie) (finite : x.isFinite = true) :
    nearest ((x.laidOut tie).coefficient * Nat.pow 10 (x.laidOut tie).exponent.toNat)
      (Nat.pow 10 (-(x.laidOut tie).exponent).toNat) = x.magnitude := by
  unfold laidOut
  cases zero : x.isZero with
  | true =>
    have none : x.magnitude = 0 := by simpa [isZero] using zero
    simp [nearest, none]
  | false => exact nearest_shortest tie finite zero

theorem exponent_laidOut (tie : Tie) (finite : x.isFinite = true)
    (none : (x.laidOut tie).coefficient = 0) : (x.laidOut tie).exponent ≤ 0 := by
  unfold laidOut at none ⊢
  cases zero : x.isZero with
  | true => exact Int.le_refl 0
  | false =>
    rw [zero, if_neg Bool.false_ne_true] at none
    exact absurd none (shortest_ne_zero tie finite zero)

/-- **The plain text of a finite number is a numeral without exponent that is rounded to the
number.** -/
theorem plainText_spec (finite : x.isFinite = true) :
    ∃ n : Json.Numeral, n.IsPlain ∧ x.plainText.toList = n.written ∧ n.nearest = x := by
  have number : x.isNaN = false := by
    simp only [isNaN, isFinite, decide_eq_true_eq, decide_eq_false_iff_not] at finite ⊢
    omega
  have body : (x.layOut .plain) =
      if x.isNegative then '-' :: (x.laidOut .upward).plain false
      else (x.laidOut .upward).plain false := rfl
  refine ⟨(x.laidOut .upward).numeral x.isNegative,
    Decimal.isPlain_numeral (exponent_laidOut _ finite), ?_, ?_⟩
  · rw [plainText, number, finite, if_neg Bool.false_ne_true, if_pos rfl, String.toList_ofList, body,
      Json.Numeral.written, Decimal.negative_numeral, Decimal.unsigned_numeral]
  · rw [Json.Numeral.nearest, Decimal.negative_numeral, Decimal.naturalOf_numeral,
      Decimal.length_fraction_numeral, nearest_laidOut _ finite, ofMagnitude_magnitude]

end RowFilter.Binary64
