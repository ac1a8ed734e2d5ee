namespace RowFilter.Text

def natural (n : Nat) : List Char := Nat.toDigits 10 n

def integer (n : Int) : List Char :=
  if n < 0 then '-' :: natural n.natAbs else natural n.natAbs

/-- At least `width` digits. -/
def padded (width n : Nat) : List Char :=
  List.replicate (width - (natural n).length) '0' ++ natural n

/-- The number that a run of digits denotes; no digits denote zero. -/
def naturalOf (digits : List Char) : Nat := Nat.ofDigitChars 10 digits 0

theorem naturalOf_natural (n : Nat) : naturalOf (natural n) = n :=
  Nat.ofDigitChars_ten_toDigits

theorem isDigit_of_mem_natural {n : Nat} {ch : Char} (h : ch ∈ natural n) : ch.isDigit = true :=
  Nat.isDigit_of_mem_toDigits (by decide) (by decide) h

def leadingDigits (cs : List Char) : List Char := cs.takeWhile Char.isDigit

def afterDigits (cs : List Char) : List Char := cs.dropWhile Char.isDigit

theorem leadingDigits_append_afterDigits (cs : List Char) :
    leadingDigits cs ++ afterDigits cs = cs := List.takeWhile_append_dropWhile

theorem length_afterDigits_le (cs : List Char) : (afterDigits cs).length ≤ cs.length :=
  (List.dropWhile_suffix _).length_le

/-- An integer with an optional minus sign and nothing else. -/
def integerOf? : List Char → Option Int
  | '-' :: cs => if cs ≠ [] ∧ cs.all Char.isDigit then some (-(naturalOf cs : Int)) else none
  | cs => if cs ≠ [] ∧ cs.all Char.isDigit then some (naturalOf cs) else none

end RowFilter.Text
