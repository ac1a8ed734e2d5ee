import RowFilter.Proofs.Json.Spelling

namespace RowFilter.Json.Numeral

/-! ## Digits in front of a point -/

theorem isDigit_of_mem_zeros {k : Nat} {c : Char} (mem : c ∈ List.replicate k '0') :
    c.isDigit = true := by
  rw [List.eq_of_mem_replicate mem]
  rfl

theorem isWhole_scaled {n k : Nat} (normal : n = 0 → k = 0) :
    IsWhole (Text.natural n ++ List.replicate k '0') where
  nonempty := by
    intro none
    exact Text.natural_ne_nil n (List.append_eq_nil_iff.1 none).1
  digits := by
    intro c mem
    rcases List.mem_append.1 mem with own | zero
    · exact Text.isDigit_of_mem_natural own
    · exact isDigit_of_mem_zeros zero
  zero := by
    intro es written
    obtain ⟨d, ds, natural, -⟩ := Text.natural_eq_cons n
    rw [natural, List.cons_append] at written
    obtain ⟨rfl, rest⟩ := List.cons.inj written
    obtain ⟨none, rfl⟩ := Text.natural_eq_zero_cons natural
    rw [normal none] at rest
    exact rest.symm

theorem isWhole_take {n k : Nat} (some : 0 < k) : IsWhole ((Text.natural n).take k) where
  nonempty := by
    have digits := List.length_pos_iff.2 (Text.natural_ne_nil n)
    rw [← List.length_pos_iff, List.length_take]
    omega
  digits := by
    intro c mem
    exact Text.isDigit_of_mem_natural (List.mem_of_mem_take mem)
  zero := by
    intro es written
    have all := List.take_append_drop k (Text.natural n)
    rw [written, List.cons_append] at all
    exact (List.append_eq_nil_iff.1 (Text.natural_eq_zero_cons all.symm).2).1

/-! ## Numerals -/

/-- No superfluous zero in front, and no exponent: `-?(0|[1-9][0-9]*)([.][0-9]+)?`. -/
structure IsPlain (n : Numeral) : Prop where
  whole : IsWhole n.whole
  fraction : ∀ c ∈ n.fraction, c.isDigit = true
  exponent : n.exponent = none

/-- The digits of a numeral, around a point if there are any behind it. -/
def unsigned (n : Numeral) : List Char :=
  n.whole ++ if n.fraction = [] then [] else '.' :: n.fraction

/-- The text of a numeral without exponent. -/
def written (n : Numeral) : List Char := if n.negative then '-' :: n.unsigned else n.unsigned

theorem unsigned_eq_cons {n : Numeral} (plain : n.IsPlain) :
    ∃ d ds, n.unsigned = d :: ds ∧ d.isDigit = true := by
  obtain ⟨d, ds, whole, digit⟩ :=
    Text.exists_cons_of_isDigit plain.whole.nonempty plain.whole.digits
  exact ⟨d, _, by rw [unsigned, whole, List.cons_append], digit⟩

theorem written_eq_cons {n : Numeral} (plain : n.IsPlain) :
    ∃ c cs, n.written = c :: cs ∧ (c = '-' ∨ c.isDigit = true) := by
  obtain ⟨d, ds, unsigned, digit⟩ := unsigned_eq_cons plain
  unfold written
  cases n.negative with
  | true => exact ⟨'-', _, rfl, .inl rfl⟩
  | false => exact ⟨d, ds, unsigned, .inr digit⟩

theorem scanSign_written {n : Numeral} (plain : n.IsPlain) (rest : List Char) :
    scanSign (n.written ++ rest) = (n.negative, n.unsigned ++ rest) := by
  obtain ⟨d, ds, unsigned, digit⟩ := unsigned_eq_cons plain
  unfold written
  cases n.negative with
  | true => rfl
  | false =>
    rw [if_neg Bool.false_ne_true, unsigned, List.cons_append]
    unfold scanSign
    split
    · next same => exact absurd (List.cons.inj same).1 (ne_of_isDigit digit (by decide))
    · rfl

theorem scan_written {n : Numeral} (plain : n.IsPlain) {rest : List Char} (stops : Stops rest) :
    scan (n.written ++ rest) = .ok (n, rest) := by
  have sign := scanSign_written plain rest
  obtain ⟨negative, whole, fraction, exponent⟩ := n
  obtain ⟨isWhole, digits, rfl⟩ := plain
  cases fraction with
  | nil =>
    simp only [unsigned, if_true, List.append_nil] at sign
    simp only [scan, sign, bind, Except.bind, scanWhole_append isWhole fun c hc => (stops c hc).1,
      scanFraction_of_stops stops, scanExponent_of_stops stops, pure, Except.pure]
  | cons d ds =>
    simp only [unsigned, reduceCtorEq, if_false, List.append_assoc] at sign
    have point : ∀ c ∈ ('.' :: (d :: ds) ++ rest).head?, c.isDigit = false := by simp
    have behind : scanFraction ('.' :: (d :: ds) ++ rest) = .ok (d :: ds, rest) :=
      scanDigits_append (by simp) digits fun c hc => (stops c hc).1
    simp only [scan, sign, bind, Except.bind, scanWhole_append isWhole point, behind,
      scanExponent_of_stops stops, pure, Except.pure]

/-- The number nearest to a numeral without exponent. -/
def nearest (n : Numeral) : Binary64 :=
  .ofMagnitude n.negative
    (Binary64.nearest (Text.naturalOf (n.whole ++ n.fraction)) (Nat.pow 10 n.fraction.length))

end RowFilter.Json.Numeral
