import RowFilter.Json.Numeral
import RowFilter.Text.Hex

/-! `tokens` cuts a text into brackets, marks and scalars. Blanks between tokens (the blank, the tab
and the two line ends) count for nothing. A scalar that is ill formed becomes a token that carries
its problem, and nothing after it is looked at: whoever reads the tokens decides whether that
problem or an earlier one is reported. -/

namespace RowFilter.Json

inductive Token
  | openList
  | closeList
  | openObject
  | closeObject
  | comma
  | colon
  | null
  | bool (b : Bool)
  | num (n : Number)
  | str (s : String)
  /-- A string that is ill formed, told apart since an object's name may only be a string. -/
  | brokenString (p : Problem)
  | broken (p : Problem)
  deriving DecidableEq, Repr

def isBlank (c : Char) : Bool := c == ' ' || c == '\t' || c == '\n' || c == '\r'

/-! ## Strings -/

/-- Four hexadecimal digits. Fewer than four bytes to the end of the text are a text cut off. -/
def scanUnit (cs : List Char) : Except Problem (Nat × List Char) :=
  match cs with
  | a :: b :: c :: d :: rest =>
    match Text.hexNumber? [a, b, c, d] with
    | some n => .ok (n, rest)
    | none => .error .malformed
  | _ =>
    if (String.ofList cs).utf8ByteSize < 4 then .error .cutOff else .error .malformed

/-- The first half of a pair of units that encodes one character. -/
def isLead (n : Nat) : Bool := 0xD800 ≤ n && n ≤ 0xDBFF

/-- The second half of a pair. -/
def isTrail (n : Nat) : Bool := 0xDC00 ≤ n && n ≤ 0xDFFF

/-- The second half of a pair, given the first. -/
def scanTrail (lead : Nat) : List Char → Except Problem (Char × List Char)
  | '\\' :: 'u' :: cs => do
    let (n, rest) ← scanUnit cs
    if isTrail n then
      return (Char.ofNat (0x10000 + (lead - 0xD800) * 0x400 + (n - 0xDC00)), rest)
    else .error .malformed
  | '\\' :: cs => .error (Problem.at cs)
  | cs => .error (Problem.at cs)

/-- What follows a backslash and a `u`: one unit, or two that make a pair. -/
def scanUnicode (cs : List Char) : Except Problem (Char × List Char) := do
  let (n, rest) ← scanUnit cs
  if isTrail n then .error .malformed
  else if isLead n then scanTrail n rest
  else return (Char.ofNat n, rest)

/-- The character that a letter after a backslash stands for. -/
def shortEscape? : Char → Option Char
  | '"' => some '"'
  | '\\' => some '\\'
  | '/' => some '/'
  | 'b' => some '\x08'
  | 'f' => some '\x0c'
  | 'n' => some '\n'
  | 'r' => some '\r'
  | 't' => some '\t'
  | _ => none

/-- What follows a backslash. -/
def scanEscape : List Char → Except Problem (Char × List Char)
  | [] => .error .cutOff
  | c :: cs =>
    if c = 'u' then scanUnicode cs
    else match shortEscape? c with
      | some d => .ok (d, cs)
      | none => .error .malformed

theorem scanUnit_length {cs rest : List Char} {n : Nat} (h : scanUnit cs = .ok (n, rest)) :
    rest.length < cs.length := by
  unfold scanUnit at h
  split at h
  · split at h
    · cases h; grind
    · cases h
  · split at h <;> cases h

theorem scanTrail_length {lead : Nat} {cs rest : List Char} {c : Char}
    (h : scanTrail lead cs = .ok (c, rest)) : rest.length < cs.length := by
  unfold scanTrail at h
  split at h
  · next tail =>
    cases unit : scanUnit tail with
    | error p => rw [unit] at h; cases h
    | ok r =>
      have shorter := scanUnit_length unit
      rw [unit] at h
      cases trail : isTrail r.1 with
      | false => simp [bind, Except.bind, trail] at h
      | true =>
        simp only [bind, Except.bind, trail, pure, Except.pure, ↓reduceIte] at h
        rw [← (Prod.mk.inj (Except.ok.inj h)).2]
        exact Nat.lt_succ_of_lt (Nat.lt_succ_of_lt shorter)
  · cases h
  · cases h

theorem scanUnicode_length {cs rest : List Char} {c : Char}
    (h : scanUnicode cs = .ok (c, rest)) : rest.length < cs.length := by
  cases unit : scanUnit cs with
  | error p => rw [scanUnicode, unit] at h; cases h
  | ok r =>
    have shorter := scanUnit_length unit
    rw [scanUnicode, unit] at h
    cases trail : isTrail r.1 with
    | true => simp [bind, Except.bind, trail] at h
    | false =>
      cases lead : isLead r.1 with
      | true =>
        simp [bind, Except.bind, trail, lead] at h
        exact Nat.lt_trans (scanTrail_length h) shorter
      | false =>
        simp [bind, Except.bind, pure, Except.pure, trail, lead] at h
        exact h.2 ▸ shorter

theorem scanEscape_length {cs rest : List Char} {c : Char}
    (h : scanEscape cs = .ok (c, rest)) : rest.length < cs.length := by
  cases cs with
  | nil => cases h
  | cons e cs =>
    rw [scanEscape] at h
    by_cases unicode : e = 'u'
    · rw [if_pos unicode] at h
      exact Nat.lt_succ_of_lt (scanUnicode_length h)
    · rw [if_neg unicode] at h
      cases short : shortEscape? e with
      | none => rw [short] at h; cases h
      | some d => rw [short] at h; cases h; exact Nat.lt_succ_self _

/-- The characters up to the closing quote, and what follows it. -/
def scanString (cs : List Char) : Except Problem (List Char × List Char) :=
  match cs with
  | [] => .error .cutOff
  | '"' :: rest => .ok ([], rest)
  | '\\' :: rest =>
    match _h : scanEscape rest with
    | .error p => .error p
    | .ok (c, rest') => (scanString rest').map fun r => (c :: r.1, r.2)
  | c :: rest =>
    if c.toNat < 32 then .error .malformed
    else (scanString rest).map fun r => (c :: r.1, r.2)
termination_by cs.length
decreasing_by
  · have := scanEscape_length _h; grind
  · grind

theorem scanString_length {cs s rest : List Char} (h : scanString cs = .ok (s, rest)) :
    rest.length < cs.length := by
  fun_induction scanString cs generalizing s rest with
  | case1 => cases h
  | case2 => cases h; exact Nat.lt_succ_self _
  | case3 => cases h
  | case4 tail c after escape ih =>
    have := scanEscape_length escape
    cases inner : scanString after with
    | error p => rw [inner] at h; cases h
    | ok r =>
      rw [inner] at h
      cases h
      have := ih inner
      grind
  | case5 => cases h
  | case6 c tail _ _ _ ih =>
    cases inner : scanString tail with
    | error p => rw [inner] at h; cases h
    | ok r =>
      rw [inner] at h
      cases h
      have := ih inner
      grind

/-! ## Tokens -/

/-- A name that has to follow letter by letter. -/
def scanName (token : Token) : List Char → List Char → Token × List Char
  | [], cs => (token, cs)
  | _ :: _, [] => (.broken .cutOff, [])
  | e :: es, c :: cs => if c = e then scanName token es cs else (.broken .malformed, [])

def mark? : Char → Option Token
  | '[' => some .openList
  | ']' => some .closeList
  | '{' => some .openObject
  | '}' => some .closeObject
  | ',' => some .comma
  | ':' => some .colon
  | _ => none

/-- The token that begins with a quote. -/
def scanText (cs : List Char) : Token × List Char :=
  match scanString cs with
  | .ok (s, rest) => (.str (String.ofList s), rest)
  | .error p => (.brokenString p, [])

/-- The token that begins with a minus sign or a digit. -/
def scanNumber (cs : List Char) : Token × List Char :=
  match Numeral.scan cs with
  | .error p => (.broken p, [])
  | .ok (n, rest) =>
    match n.value? with
    | some k => (.num k, rest)
    | none => (.broken .malformed, [])

/-- The token that begins with `c`, and the rest of the text; after a broken token there is none. -/
def scanToken (c : Char) (cs : List Char) : Token × List Char :=
  match mark? c with
  | some token => (token, cs)
  | none =>
    if c = '"' then scanText cs
    else if c = '-' ∨ c.isDigit then scanNumber (c :: cs)
    else if c = 'n' then scanName .null ['u', 'l', 'l'] cs
    else if c = 't' then scanName (.bool true) ['r', 'u', 'e'] cs
    else if c = 'f' then scanName (.bool false) ['a', 'l', 's', 'e'] cs
    else (.broken .malformed, [])

theorem scanName_length {token : Token} {es cs : List Char} :
    (scanName token es cs).2.length ≤ cs.length := by
  induction es generalizing cs with
  | nil => exact Nat.le_refl _
  | cons e es ih =>
    cases cs with
    | nil => exact Nat.le_refl _
    | cons c cs =>
      unfold scanName
      split
      · exact Nat.le_succ_of_le ih
      · exact Nat.zero_le _

theorem scanText_length (cs : List Char) : (scanText cs).2.length ≤ cs.length := by
  unfold scanText
  split
  · next h => exact Nat.le_of_lt (scanString_length h)
  · exact Nat.zero_le _

theorem scanNumber_length (c : Char) (cs : List Char) :
    (scanNumber (c :: cs)).2.length ≤ cs.length := by
  unfold scanNumber
  split
  · exact Nat.zero_le _
  · next h =>
    split
    · exact Nat.le_of_lt_succ (Numeral.scan_length h)
    · exact Nat.zero_le _

theorem scanToken_length (c : Char) (cs : List Char) :
    (scanToken c cs).2.length ≤ cs.length := by
  unfold scanToken
  split
  · exact Nat.le_refl _
  · split
    · exact scanText_length cs
    · split
      · exact scanNumber_length c cs
      · split
        · exact scanName_length
        · split
          · exact scanName_length
          · split
            · exact scanName_length
            · exact Nat.zero_le _

/-- The tokens of a text, up to the first that is broken. -/
def tokens (cs : List Char) : List Token :=
  match cs with
  | [] => []
  | c :: rest =>
    if isBlank c then tokens rest
    else (scanToken c rest).1 :: tokens (scanToken c rest).2
termination_by cs.length
decreasing_by
  · exact Nat.lt_succ_self _
  · exact Nat.lt_succ_of_le (scanToken_length c rest)

end RowFilter.Json
