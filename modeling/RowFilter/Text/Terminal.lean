import RowFilter.Text.Hex

/-! Text that is shown on a terminal must not steer it. The bell, the backspace, the form feed, the
escape and the delete are spelled out in two hexadecimal digits, and the controls from 80 to 9f with
their code point in braces. -/

namespace RowFilter.Text

def terminalChar (c : Char) : List Char :=
  if c.toNat ∈ [0x7, 0x8, 0xc, 0x1b, 0x7f] then ['\\', 'x'] ++ hexDigits 2 c.toNat
  else if 0x80 ≤ c.toNat ∧ c.toNat ≤ 0x9f then ['\\', 'u', '{'] ++ hexDigits 2 c.toNat ++ ['}']
  else [c]

/-- The text with nothing left in it that a terminal obeys. -/
def terminal (s : String) : String := String.ofList (s.toList.flatMap terminalChar)

def Steers (c : Char) : Prop :=
  c.toNat ∈ [0x7, 0x8, 0xc, 0x1b, 0x7f] ∨ (0x80 ≤ c.toNat ∧ c.toNat ≤ 0x9f)

instance : DecidablePred Steers := fun c =>
  inferInstanceAs (Decidable (c.toNat ∈ [0x7, 0x8, 0xc, 0x1b, 0x7f] ∨
    (0x80 ≤ c.toNat ∧ c.toNat ≤ 0x9f)))

theorem terminalChar_of_not_steers {c : Char} (h : ¬Steers c) : terminalChar c = [c] := by
  obtain ⟨first, second⟩ := not_or.1 h
  rw [terminalChar, if_neg first, if_neg second]

/-- Text that a terminal does not obey stays as it is. -/
theorem terminal_of_not_steers {s : String} (h : ∀ c ∈ s.toList, ¬Steers c) : terminal s = s := by
  have kept (cs : List Char) (plain : ∀ c ∈ cs, ¬Steers c) : cs.flatMap terminalChar = cs := by
    induction cs with
    | nil => rfl
    | cons c cs ih =>
      obtain ⟨head, tail⟩ := List.forall_mem_cons.1 plain
      rw [List.flatMap_cons, terminalChar_of_not_steers head, ih tail, List.singleton_append]
  rw [terminal, kept s.toList h, String.ofList_toList]

theorem not_steers_of_isDigit {c : Char} (digit : c.isDigit = true) : ¬Steers c := by
  have code : 48 ≤ c.toNat ∧ c.toNat ≤ 57 := Char.isDigit_iff_toNat.1 digit
  simp only [Steers, List.mem_cons, List.not_mem_nil, or_false]
  omega

theorem not_steers_of_mem_hexDigits {width n : Nat} {c : Char} (mem : c ∈ hexDigits width n) :
    ¬Steers c := by
  obtain ⟨i, -, rfl⟩ := List.mem_map.1 mem
  have digit : ∀ k < 16, ¬Steers (Nat.digitChar k) := by decide
  exact digit _ (Nat.mod_lt _ (by decide))

/-- Nothing that is shown is obeyed. -/
theorem not_steers_of_mem_terminal {s : String} {c : Char} (mem : c ∈ (terminal s).toList) :
    ¬Steers c := by
  rw [terminal, String.toList_ofList] at mem
  obtain ⟨d, -, mem⟩ := List.mem_flatMap.1 mem
  simp only [terminalChar, List.append_assoc] at mem
  split at mem
  · simp only [List.cons_append, List.nil_append, List.mem_cons] at mem
    rcases mem with rfl | rfl | digit
    · decide
    · decide
    · exact not_steers_of_mem_hexDigits digit
  · next other =>
    split at mem
    · simp only [List.cons_append, List.nil_append, List.mem_cons, List.mem_append,
        List.not_mem_nil, or_false] at mem
      rcases mem with rfl | rfl | rfl | digit | rfl
      case inr.inr.inr.inl => exact not_steers_of_mem_hexDigits digit
      all_goals decide
    · next beyond =>
      obtain rfl := List.mem_singleton.1 mem
      exact not_or.2 ⟨other, beyond⟩

example : terminal "a\x1b[31m\t\u009f" = "a\\x1b[31m\t\\u\x7b9f\x7d" := by decide +kernel

end RowFilter.Text
