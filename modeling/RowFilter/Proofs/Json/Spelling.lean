import RowFilter.Json.Printer
import RowFilter.Json.Token
import RowFilter.Proofs.Text.Digits

/-!
# How a text spells its tokens

A row of tokens may be written in many ways: with any blanks around each token,
and with any escapes inside of strings. All of them are cut into the same row.

* `SpellsChar`, `SpellsChars`: how the characters of a string may be written;
* `Spells`: how a token may be written;
* `Written`: the tokens of a text, with any blanks before, between and after them;
* `scanString_append`, `Numeral.scan_integer`: strings and integers are read back;
* `Legible`: tokens that can be told from a text, fractions not among them;
* `tokens_of_written`: a text is cut into the tokens it spells.
-/

namespace RowFilter.Json

/-- How a character of a string may be written: as it stands, by its letter behind a backslash, or
as one unit of four hexadecimal digits or a pair of them. -/
inductive SpellsChar (c : Char) : List Char → Prop
  | plain (quote : c ≠ '"') (backslash : c ≠ '\\') (control : 32 ≤ c.toNat) : SpellsChar c [c]
  | short {letter : Char} (stands : shortEscape? letter = some c) : SpellsChar c ['\\', letter]
  | unit {ds : List Char} (four : ds.length = 4) (digits : Text.hexNumber? ds = some c.toNat) :
      SpellsChar c ('\\' :: 'u' :: ds)
  | pair {ds es : List Char} {lead trail : Nat} (four : ds.length = 4) (four' : es.length = 4)
      (digits : Text.hexNumber? ds = some lead) (digits' : Text.hexNumber? es = some trail)
      (first : isLead lead = true) (second : isTrail trail = true)
      (code : c.toNat = 0x10000 + (lead - 0xD800) * 0x400 + (trail - 0xDC00)) :
      SpellsChar c ('\\' :: 'u' :: ds ++ '\\' :: 'u' :: es)

/-- How the characters of a string may be written one after the other. -/
inductive SpellsChars : List Char → List Char → Prop
  | nil : SpellsChars [] []
  | cons {c : Char} {s front rest : List Char} (char : SpellsChar c front)
      (chars : SpellsChars s rest) : SpellsChars (c :: s) (front ++ rest)

/-- How a token may be written. -/
inductive Spells : Token → List Char → Prop
  | mark {token : Token} {c : Char} (stands : mark? c = some token) : Spells token [c]
  | null : Spells .null "null".toList
  | bool (b : Bool) : Spells (.bool b) (boolText b)
  | num (n : Number) : Spells (.num n) n.text
  | str {s : String} {cs : List Char} (chars : SpellsChars s.toList cs) :
      Spells (.str s) ('"' :: cs ++ ['"'])

/-- The tokens of a text, with any blanks before, between and after them. -/
inductive Written : List Token → List Char → Prop
  | blanks {cs : List Char} (blank : ∀ c ∈ cs, isBlank c = true) : Written [] cs
  | token {token : Token} {ts : List Token} {front own rest : List Char}
      (blank : ∀ c ∈ front, isBlank c = true) (spelled : Spells token own)
      (others : Written ts rest) : Written (token :: ts) (front ++ own ++ rest)

/-! ## Strings -/

theorem scanUnit_append {ds : List Char} {n : Nat} (four : ds.length = 4)
    (digits : Text.hexNumber? ds = some n) (rest : List Char) :
    scanUnit (ds ++ rest) = .ok (n, rest) := by
  obtain ⟨a, b, c, d, rfl⟩ : ∃ a b c d, ds = [a, b, c, d] := by
    match ds, four with
    | [a, b, c, d], _ => exact ⟨a, b, c, d, rfl⟩
  simp only [scanUnit, List.cons_append, List.nil_append, digits]

/-- No character is half of a pair. -/
theorem isLead_toNat (c : Char) : isLead c.toNat = false ∧ isTrail c.toNat = false := by
  have valid : c.toNat < 0xD800 ∨ 0xDFFF < c.toNat ∧ c.toNat < 0x110000 := c.valid
  simp only [isLead, isTrail, Bool.and_eq_false_iff, decide_eq_false_iff_not]
  omega

theorem scanEscape_unit {c : Char} {ds : List Char} (four : ds.length = 4)
    (digits : Text.hexNumber? ds = some c.toNat) (rest : List Char) :
    scanEscape ('u' :: (ds ++ rest)) = .ok (c, rest) := by
  obtain ⟨lead, trail⟩ := isLead_toNat c
  simp [scanEscape, scanUnicode, scanUnit_append four digits, bind, Except.bind, pure, Except.pure,
    lead, trail]

theorem scanEscape_pair {c : Char} {ds es : List Char} {lead trail : Nat} (four : ds.length = 4)
    (four' : es.length = 4) (digits : Text.hexNumber? ds = some lead)
    (digits' : Text.hexNumber? es = some trail) (first : isLead lead = true)
    (second : isTrail trail = true)
    (code : c.toNat = 0x10000 + (lead - 0xD800) * 0x400 + (trail - 0xDC00)) (rest : List Char) :
    scanEscape ('u' :: (ds ++ '\\' :: 'u' :: (es ++ rest))) = .ok (c, rest) := by
  have apart : isTrail lead = false := by
    simp only [isLead, isTrail, Bool.and_eq_true, decide_eq_true_eq, Bool.and_eq_false_iff,
      decide_eq_false_iff_not] at first ⊢
    omega
  simp [scanEscape, scanUnicode, scanTrail, scanUnit_append four digits,
    scanUnit_append four' digits', bind, Except.bind, pure, Except.pure, first, second, apart,
    ← code]

theorem scanEscape_short {c letter : Char} (stands : shortEscape? letter = some c)
    (rest : List Char) : scanEscape (letter :: rest) = .ok (c, rest) := by
  have other : letter ≠ 'u' := by
    rintro rfl
    cases stands
  simp [scanEscape, other, stands]

theorem scanString_backslash {c : Char} {cs rest : List Char}
    (escape : scanEscape cs = .ok (c, rest)) :
    scanString ('\\' :: cs) = (scanString rest).map fun r => (c :: r.1, r.2) := by
  rw [scanString]
  split
  · next failed => rw [escape] at failed; cases failed
  · next read =>
    rw [escape] at read
    cases read
    rfl

theorem scanString_char {c : Char} {front : List Char} (spelled : SpellsChar c front)
    (rest : List Char) :
    scanString (front ++ rest) = (scanString rest).map fun r => (c :: r.1, r.2) := by
  cases spelled with
  | plain quote backslash control =>
    rw [List.cons_append, List.nil_append, scanString.eq_def]
    split
    · next same => cases same
    · next same => exact absurd (List.cons.inj same).1 quote
    · next same => exact absurd (List.cons.inj same).1 backslash
    · next same =>
      obtain ⟨rfl, rfl⟩ := List.cons.inj same
      rw [if_neg (Nat.not_lt.2 control)]
  | short stands => exact scanString_backslash (scanEscape_short stands rest)
  | unit four digits => exact scanString_backslash (scanEscape_unit four digits rest)
  | pair four four' digits digits' first second code =>
    simp only [List.cons_append, List.append_assoc]
    exact scanString_backslash (scanEscape_pair four four' digits digits' first second code rest)

theorem scanString_append {s cs : List Char} (spelled : SpellsChars s cs) (rest : List Char) :
    scanString (cs ++ '"' :: rest) = .ok (s, rest) := by
  induction spelled with
  | nil => rw [List.nil_append, scanString]
  | cons char _ ih => rw [List.append_assoc, scanString_char char, ih]; rfl

/-- Every control has its escape; all other characters stand as they are. -/
theorem spellsChar_escapeChar (c : Char) : SpellsChar c (escapeChar c) := by
  unfold escapeChar
  split
  case h_8 quote backslash _ _ _ _ _ =>
    split
    · next control =>
      have fits : c.toNat < Nat.pow 16 4 := Nat.lt_trans control (by decide)
      exact .unit (Text.length_hexDigits 4 c.toNat) (Text.hexNumber?_hexDigits fits)
    · next control => exact .plain quote backslash (Nat.not_lt.1 control)
  all_goals exact .short rfl

theorem spellsChars_escaped (s : List Char) : SpellsChars s (s.flatMap escapeChar) := by
  induction s with
  | nil => exact .nil
  | cons c s ih => exact .cons (spellsChar_escapeChar c) ih

theorem spells_quote (s : String) : Spells (.str s) (quote s) :=
  .str (spellsChars_escaped s.toList)

/-! ## Numbers -/

/-- A text that does not carry a number in front of it on. -/
def Stops (cs : List Char) : Prop :=
  ∀ c ∈ cs.head?, c.isDigit = false ∧ c ≠ '.' ∧ c ≠ 'e' ∧ c ≠ 'E'

namespace Numeral

theorem scanSign_natural (n : Nat) (rest : List Char) :
    scanSign (Text.natural n ++ rest) = (false, Text.natural n ++ rest) := by
  obtain ⟨d, ds, written, digit⟩ := Text.natural_eq_cons n
  rw [written, List.cons_append]
  unfold scanSign
  split
  · next minus =>
    cases minus
    cases digit
  · rfl

theorem value?_integer (n : Int) (fits : -0x8000000000000000 ≤ n ∧ n < 0x10000000000000000) :
    value? ⟨n < 0, Text.natural n.natAbs, [], none⟩ = some (.int n fits) := by
  have same : (if n < 0 then -(n.natAbs : Int) else n.natAbs) = n := by split <;> omega
  have sign : ¬(n < 0 ∧ n.natAbs = 0) := by omega
  have whole : integer? ⟨n < 0, Text.natural n.natAbs, [], none⟩ = some (.int n fits) := by
    simp only [integer?, Text.naturalOf_natural, decide_eq_true_eq, sign, ne_eq, not_true_eq_false,
      or_self, if_false, same, Number.ofInt?, dif_pos fits]
  rw [value?, whole]

theorem scanDigits_append {ds rest : List Char} (nonempty : ds ≠ [])
    (digits : ∀ c ∈ ds, c.isDigit = true) (stop : ∀ c ∈ rest.head?, c.isDigit = false) :
    scanDigits (ds ++ rest) = .ok (ds, rest) := by
  obtain ⟨front, behind⟩ := Text.span_append digits stop
  rw [scanDigits, Text.leadingDigits, front, Text.afterDigits, behind]
  split
  · next none => exact absurd rfl nonempty
  · rfl

/-- At least one digit, and nothing behind a zero in front. -/
structure IsWhole (ds : List Char) : Prop where
  nonempty : ds ≠ []
  digits : ∀ c ∈ ds, c.isDigit = true
  zero : ∀ es, ds = '0' :: es → es = []

theorem isWhole_natural (n : Nat) : IsWhole (Text.natural n) where
  nonempty := Text.natural_ne_nil n
  digits _ := Text.isDigit_of_mem_natural
  zero _ written := (Text.natural_eq_zero_cons written).2

theorem scanWhole_append {ds rest : List Char} (whole : IsWhole ds)
    (stop : ∀ c ∈ rest.head?, c.isDigit = false) : scanWhole (ds ++ rest) = .ok (ds, rest) := by
  rw [scanWhole, scanDigits_append whole.nonempty whole.digits stop]
  split
  · next superfluous =>
    cases whole.zero _ (Prod.mk.inj (Except.ok.inj superfluous)).1
  · rfl

section
variable {rest : List Char} (stops : Stops rest)
include stops

theorem scanWhole_natural (n : Nat) :
    scanWhole (Text.natural n ++ rest) = .ok (Text.natural n, rest) :=
  scanWhole_append (isWhole_natural n) fun c hc => (stops c hc).1

theorem scanFraction_of_stops : scanFraction rest = .ok ([], rest) := by
  unfold scanFraction
  split
  · exact absurd rfl (stops '.' rfl).2.1
  · rfl

theorem scanExponent_of_stops : scanExponent rest = .ok (none, rest) := by
  unfold scanExponent
  split
  · exact absurd rfl (stops 'e' rfl).2.2.1
  · exact absurd rfl (stops 'E' rfl).2.2.2
  · rfl

theorem scan_integer (n : Int) :
    scan (Text.integer n ++ rest) = .ok (⟨n < 0, Text.natural n.natAbs, [], none⟩, rest) := by
  have sign : scanSign (Text.integer n ++ rest) =
      (decide (n < 0), Text.natural n.natAbs ++ rest) := by
    unfold Text.integer
    by_cases negative : n < 0
    · simp [negative, scanSign]
    · simp only [negative, if_false, scanSign_natural, decide_false]
  simp [scan, sign, scanWhole_natural stops, scanFraction_of_stops stops,
    scanExponent_of_stops stops, bind, Except.bind, pure, Except.pure]

end

end Numeral

/-! ## Tokens -/

namespace Token

def isNumber : Token → Bool
  | .num _ => true
  | _ => false

/-- A number that is written as a fraction may be read as another one. -/
def isFloat : Token → Bool
  | .num (.float _ _) => true
  | _ => false

end Token

/-- Tokens that a text can tell: none is a fraction, and no number follows another one directly. -/
def Legible : List Token → Prop
  | [] => True
  | t :: ts =>
    t.isFloat = false ∧ (t.isNumber = true → ∀ u ∈ ts.head?, u.isNumber = false) ∧ Legible ts

theorem legible_nil : Legible [] := True.intro

theorem legible_cons {t : Token} {ts : List Token} (other : t.isNumber = false)
    (legible : Legible ts) : Legible (t :: ts) := by
  refine ⟨?_, fun number => absurd (other.symm.trans number) (by decide), legible⟩
  cases t with
  | num n => cases other
  | _ => rfl

theorem ne_of_isDigit {c d : Char} (digit : c.isDigit = true) (other : d.isDigit = false) :
    c ≠ d := by
  rintro rfl
  rw [digit] at other
  cases other

theorem integer_eq_cons (n : Int) :
    ∃ c cs, Text.integer n = c :: cs ∧ (c = '-' ∨ c.isDigit = true) := by
  unfold Text.integer
  by_cases negative : n < 0
  · exact ⟨'-', _, if_pos negative, .inl rfl⟩
  · obtain ⟨d, ds, written, digit⟩ := Text.natural_eq_cons n.natAbs
    exact ⟨d, ds, (if_neg negative).trans written, .inr digit⟩

/-- A character that is a token by itself is neither a blank nor part of a number. -/
theorem of_mark? {c : Char} {token : Token} (stands : mark? c = some token) :
    isBlank c = false ∧ c.isDigit = false ∧ c ≠ '.' ∧ c ≠ 'e' ∧ c ≠ 'E' := by
  unfold mark? at stands
  split at stands
  case h_7 => cases stands
  all_goals decide

theorem mark?_of_isDigit {c : Char} (digit : c.isDigit = true) : mark? c = none := by
  cases stands : mark? c with
  | none => rfl
  | some token => exact absurd rfl (ne_of_isDigit digit (of_mark? stands).2.1)

theorem isBlank_of_isDigit {c : Char} (digit : c.isDigit = true) : isBlank c = false := by
  simp [isBlank, ne_of_isDigit digit (d := ' ') (by decide),
    ne_of_isDigit digit (d := '\t') (by decide), ne_of_isDigit digit (d := '\n') (by decide),
    ne_of_isDigit digit (d := '\r') (by decide)]

theorem scanToken_integer {n : Int} (fits : -0x8000000000000000 ≤ n ∧ n < 0x10000000000000000)
    {rest : List Char} (stops : Stops rest) :
    ∃ c cs, Text.integer n = c :: cs ∧ isBlank c = false ∧
      scanToken c (cs ++ rest) = (.num (.int n fits), rest) := by
  obtain ⟨c, cs, written, begins⟩ := integer_eq_cons n
  have read : scanNumber (c :: cs ++ rest) = (.num (.int n fits), rest) := by
    rw [← written, scanNumber, Numeral.scan_integer stops]
    simp only [Numeral.value?_integer n fits]
  have sign : mark? c = none ∧ isBlank c = false ∧ c ≠ '"' := by
    rcases begins with rfl | digit
    · decide
    · exact ⟨mark?_of_isDigit digit, isBlank_of_isDigit digit, ne_of_isDigit digit (by decide)⟩
  refine ⟨c, cs, written, sign.2.1, ?_⟩
  simp only [scanToken, sign.1, if_neg sign.2.2, if_pos begins]
  exact read

theorem scanToken_of_spells {token : Token} {own rest : List Char} (spelled : Spells token own)
    (whole : token.isFloat = false) (stops : token.isNumber = true → Stops rest) :
    ∃ c cs, own = c :: cs ∧ isBlank c = false ∧ scanToken c (cs ++ rest) = (token, rest) := by
  cases spelled with
  | mark stands => exact ⟨_, [], rfl, (of_mark? stands).1, by simp [scanToken, stands]⟩
  | null => exact ⟨'n', ['u', 'l', 'l'], rfl, rfl, by simp [scanToken, mark?, scanName]⟩
  | bool b =>
    cases b with
    | true => exact ⟨'t', ['r', 'u', 'e'], rfl, rfl, by simp [scanToken, mark?, scanName]⟩
    | false => exact ⟨'f', ['a', 'l', 's', 'e'], rfl, rfl, by simp [scanToken, mark?, scanName]⟩
  | num n =>
    cases n with
    | int n fits => exact scanToken_integer fits (stops rfl)
    | float x finite => cases whole
  | @str s cs chars =>
    refine ⟨'"', cs ++ ['"'], rfl, rfl, ?_⟩
    have read := scanString_append chars rest
    simp [scanToken, mark?, scanText, read]

theorem tokens_of_spells {token : Token} {own rest : List Char} (spelled : Spells token own)
    (whole : token.isFloat = false) (stops : token.isNumber = true → Stops rest) :
    tokens (own ++ rest) = token :: tokens rest := by
  obtain ⟨c, cs, rfl, solid, read⟩ := scanToken_of_spells spelled whole stops
  rw [List.cons_append, tokens, if_neg (by simp [solid]), read]

theorem tokens_append_of_blank {front : List Char} (blank : ∀ c ∈ front, isBlank c = true)
    (rest : List Char) : tokens (front ++ rest) = tokens rest := by
  induction front with
  | nil => rfl
  | cons c front ih =>
    obtain ⟨first, others⟩ := List.forall_mem_cons.1 blank
    rw [List.cons_append, tokens, if_pos first, ih others]

theorem stops_of_isBlank {c : Char} (blank : isBlank c = true) (rest : List Char) :
    Stops (c :: rest) := by
  intro d hd
  obtain rfl : c = d := by simpa using hd
  simp only [isBlank, Bool.or_eq_true, beq_iff_eq] at blank
  rcases blank with ((rfl | rfl) | rfl) | rfl <;> decide

/-- No token other than a number carries a number on. -/
theorem stops_of_spells {token : Token} {own : List Char} (spelled : Spells token own)
    (other : token.isNumber = false) (rest : List Char) : Stops (own ++ rest) := by
  intro d hd
  cases spelled with
  | @mark _ c stands =>
    obtain rfl : c = d := by simpa using hd
    exact (of_mark? stands).2
  | null =>
    obtain rfl : 'n' = d := by simpa using hd
    decide
  | bool b =>
    cases b with
    | true =>
      obtain rfl : 't' = d := by simpa [boolText] using hd
      decide
    | false =>
      obtain rfl : 'f' = d := by simpa [boolText] using hd
      decide
  | num n => cases other
  | str chars =>
    obtain rfl : '"' = d := by simpa using hd
    decide

theorem Written.stops {ts : List Token} {cs : List Char} (written : Written ts cs)
    (other : ∀ t ∈ ts.head?, t.isNumber = false) : Stops cs := by
  cases written with
  | blanks blank =>
    cases cs with
    | nil => exact nofun
    | cons c cs => exact stops_of_isBlank (blank c (List.mem_cons_self ..)) cs
  | @token t _ front own rest blank spelled others =>
    cases front with
    | nil => exact stops_of_spells spelled (other t rfl) rest
    | cons c front => exact stops_of_isBlank (blank c (List.mem_cons_self ..)) _

/-- **A text is cut into the tokens it spells.** -/
theorem tokens_of_written {ts : List Token} {cs : List Char} (written : Written ts cs)
    (legible : Legible ts) : tokens cs = ts := by
  induction written with
  | @blanks cs blank =>
    rw [← List.append_nil cs, tokens_append_of_blank blank, tokens]
  | token blank spelled others ih =>
    obtain ⟨whole, apart, rest⟩ := legible
    have stops := fun number => others.stops (apart number)
    rw [List.append_assoc, tokens_append_of_blank blank, tokens_of_spells spelled whole stops,
      ih rest]

end RowFilter.Json
