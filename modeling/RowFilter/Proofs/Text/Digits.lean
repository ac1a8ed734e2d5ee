import RowFilter.Text.Decimal
import RowFilter.Text.Hex

namespace RowFilter.Text

/-- A row of characters of a class is told apart from what follows it. -/
theorem span_append {p : Char → Bool} {front rest : List Char} (own : ∀ ch ∈ front, p ch = true)
    (stop : ∀ ch ∈ rest.head?, p ch = false) :
    (front ++ rest).takeWhile p = front ∧ (front ++ rest).dropWhile p = rest := by
  rw [List.takeWhile_append_of_pos own, List.dropWhile_append_of_pos own]
  cases rest with
  | nil => simp
  | cons ch rest => simp [stop ch rfl]

/-! ## Decimal digits -/

theorem natural_ne_nil (n : Nat) : natural n ≠ [] := Nat.toDigits_ne_nil

theorem exists_cons_of_isDigit {ds : List Char} (nonempty : ds ≠ [])
    (digits : ∀ ch ∈ ds, ch.isDigit = true) : ∃ d rest, ds = d :: rest ∧ d.isDigit = true := by
  cases ds with
  | nil => exact absurd rfl nonempty
  | cons d rest => exact ⟨d, rest, rfl, digits d (List.mem_cons_self ..)⟩

theorem natural_eq_cons (n : Nat) : ∃ d ds, natural n = d :: ds ∧ d.isDigit = true :=
  exists_cons_of_isDigit (natural_ne_nil n) fun _ => isDigit_of_mem_natural

theorem natural_eq_zero_cons {n : Nat} {ds : List Char} (h : natural n = '0' :: ds) :
    n = 0 ∧ ds = [] := by
  induction n using Nat.strongRecOn generalizing ds with
  | ind n ih =>
    rw [natural, Nat.toDigits_eq_if (by decide)] at h
    split at h
    · have zero : Nat.digitChar n = '0' := (List.cons.inj h).1
      exact ⟨Nat.digitChar_eq_zero.1 zero, (List.cons.inj h).2.symm⟩
    · next large =>
      -- the digits in front of the last one are those of a smaller number, which is not zero
      cases front : natural (n / 10) with
      | nil => exact absurd front (natural_ne_nil _)
      | cons d es =>
        rw [natural] at front
        rw [front, List.cons_append] at h
        obtain ⟨rfl, -⟩ := List.cons.inj h
        have := (ih (n / 10) (by omega) front).1
        omega

theorem length_natural_le_iff {n w : Nat} (some : 0 < w) :
    (natural n).length ≤ w ↔ n < Nat.pow 10 w :=
  Nat.length_toDigits_le_iff (by decide) some

theorem isDigit_of_mem_padded {w n : Nat} {ch : Char} (h : ch ∈ padded w n) :
    ch.isDigit = true := by
  rcases List.mem_append.1 h with h | h
  · rw [List.eq_of_mem_replicate h]
    decide
  · exact isDigit_of_mem_natural h

theorem naturalOf_padded (w n : Nat) : naturalOf (padded w n) = n := by
  rw [naturalOf, padded, Nat.ofDigitChars_append, Nat.ofDigitChars_replicate_zero, Nat.mul_zero]
  exact naturalOf_natural n

theorem padded_ne_nil (w n : Nat) : padded w n ≠ [] := by
  intro h
  exact natural_ne_nil n (List.append_eq_nil_iff.1 h).2

theorem padded_eq_cons (w n : Nat) : ∃ d ds, padded w n = d :: ds ∧ d.isDigit = true :=
  exists_cons_of_isDigit (padded_ne_nil w n) fun _ => isDigit_of_mem_padded

theorem length_padded {w n : Nat} (some : 0 < w) (fits : n < Nat.pow 10 w) :
    (padded w n).length = w := by
  have short := (length_natural_le_iff some).2 fits
  rw [padded, List.length_append, List.length_replicate]
  omega

/-! ## Hexadecimal digits -/

theorem length_hexDigits (w n : Nat) : (hexDigits w n).length = w := by
  simp [hexDigits]

theorem hexDigits_succ (w n : Nat) :
    hexDigits (w + 1) n = Nat.digitChar ((n >>> (4 * w)) % 16) :: hexDigits w n := by
  simp [hexDigits, List.range_succ]

theorem hexValue?_digitChar {d : Nat} (h : d < 16) : hexValue? (Nat.digitChar d) = some d := by
  revert d
  decide

/-- The digits of a width denote the last part of a number, behind the digits before them. -/
theorem foldlM_hexDigits (w n start : Nat) :
    (hexDigits w n).foldlM (fun n c => (hexValue? c).map (16 * n + ·)) start =
      some (Nat.pow 16 w * start + n % Nat.pow 16 w) := by
  induction w generalizing start with
  | zero =>
    simp [hexDigits, Nat.mod_one]
  | succ w ih =>
    have small : (n >>> (4 * w)) % 16 < 16 := Nat.mod_lt _ (by decide)
    have digit : n >>> (4 * w) = n / Nat.pow 16 w := by
      rw [Nat.shiftRight_eq_div_pow, Nat.pow_mul]
      rfl
    have step : Nat.pow 16 (w + 1) = Nat.pow 16 w * 16 := rfl
    rw [hexDigits_succ, List.foldlM_cons, hexValue?_digitChar small]
    simp only [Option.map_some, Option.bind_eq_bind, Option.bind_some]
    rw [ih, digit, step, Nat.mod_mul, Nat.mul_add, Nat.mul_assoc]
    congr 1
    omega

theorem hexNumber?_hexDigits {w n : Nat} (fits : n < Nat.pow 16 w) :
    hexNumber? (hexDigits w n) = some n := by
  rw [hexNumber?, foldlM_hexDigits, Nat.mul_zero, Nat.zero_add, Nat.mod_eq_of_lt fits]

end RowFilter.Text
