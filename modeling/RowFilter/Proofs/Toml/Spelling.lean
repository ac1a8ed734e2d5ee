import RowFilter.Proofs.Text.Digits
import RowFilter.Toml.Scan

namespace RowFilter.Toml

/-! ## Between the parts -/

def IsBlanks (cs : List Char) : Prop := ∀ c ∈ cs, isBlank c = true

/-- The ways to end a line. -/
inductive IsNewLine : List Char → Prop
  | feed : IsNewLine ['\n']
  | carriage : IsNewLine ['\r', '\n']

/-- Blanks and line ends. -/
inductive Gap : List Char → Prop
  | nil : Gap []
  | blank {c : Char} {cs : List Char} (blank : isBlank c = true) (others : Gap cs) : Gap (c :: cs)
  | newLine {nl cs : List Char} (newLine : IsNewLine nl) (others : Gap cs) : Gap (nl ++ cs)

/-- Blanks, line ends and comments. -/
inductive Trivia : List Char → Prop
  | gap {cs : List Char} (gap : Gap cs) : Trivia cs
  | comment {front comment nl cs : List Char} (gap : Gap front)
      (plain : ∀ c ∈ comment, isPlain c = true) (newLine : IsNewLine nl) (others : Trivia cs) :
      Trivia (front ++ '#' :: (comment ++ (nl ++ cs)))

/-- The text does not begin with a line end. -/
def OnLine (cs : List Char) : Prop := ∀ c ∈ cs.head?, c ≠ '\n' ∧ c ≠ '\r'

/-- The text begins with neither a blank nor a line end. -/
def Tight (cs : List Char) : Prop := OnLine cs ∧ ∀ c ∈ cs.head?, isBlank c = false

theorem tight_cons {c : Char} (cs : List Char) (feed : c ≠ '\n') (carriage : c ≠ '\r')
    (blank : isBlank c = false) : Tight (c :: cs) := by
  constructor
  · rintro _ ⟨⟩
    exact ⟨feed, carriage⟩
  · rintro _ ⟨⟩
    exact blank

section
variable {p : Char → Prop} {rest : List Char}

/-- What holds of the first character of each of two texts holds of that of both together. -/
theorem head_append {front : List Char} (own : ∀ c ∈ front.head?, p c)
    (stop : ∀ c ∈ rest.head?, p c) : ∀ c ∈ (front ++ rest).head?, p c := by
  cases front with
  | nil => exact stop
  | cons c front => exact own

theorem IsBlanks.head {cs : List Char} (blanks : IsBlanks cs) (space : p ' ') (tab : p '\t') :
    ∀ c ∈ cs.head?, p c := by
  cases cs with
  | nil => nofun
  | cons c cs =>
    rintro _ ⟨⟩
    have blank := blanks c List.mem_cons_self
    simp only [isBlank, Bool.or_eq_true, beq_iff_eq] at blank
    rcases blank with rfl | rfl
    · exact space
    · exact tab

theorem IsNewLine.head {nl : List Char} (newLine : IsNewLine nl) (feed : p '\n')
    (carriage : p '\r') : ∀ c ∈ (nl ++ rest).head?, p c := by
  cases newLine with
  | feed => rintro _ ⟨⟩; exact feed
  | carriage => rintro _ ⟨⟩; exact carriage

end

theorem IsNewLine.length_pos {nl : List Char} (newLine : IsNewLine nl) : 0 < nl.length := by
  cases newLine <;> decide

theorem newLine?_append {nl : List Char} (newLine : IsNewLine nl) (rest : List Char) :
    newLine? (nl ++ rest) = some rest := by
  cases newLine <;> rfl

theorem newLine?_of_onLine {cs : List Char} (onLine : OnLine cs) : newLine? cs = none := by
  unfold newLine?
  split
  · exact absurd rfl (onLine '\n' rfl).1
  · exact absurd rfl (onLine '\r' rfl).2
  · rfl

theorem skipBlanks_append {front rest : List Char} (blank : IsBlanks front)
    (stop : ∀ c ∈ rest.head?, isBlank c = false) : skipBlanks (front ++ rest) = rest :=
  (Text.span_append blank stop).2

theorem skipBlanks_self {cs : List Char} (stop : ∀ c ∈ cs.head?, isBlank c = false) :
    skipBlanks cs = cs :=
  skipBlanks_append (List.forall_mem_nil _) stop

theorem skipLines_of_tight {cs : List Char} (tight : Tight cs) : skipLines cs = cs := by
  cases cs with
  | nil => rfl
  | cons c cs =>
    obtain ⟨onLine, blank⟩ := tight
    rw [skipLines]
    · simp [(onLine c rfl).1, blank c rfl]
    · rintro cs' rfl
      exact absurd rfl (onLine '\r' rfl).2

theorem skipLines_append {gap rest : List Char} (h : Gap gap) (tight : Tight rest) :
    skipLines (gap ++ rest) = rest := by
  induction h with
  | nil => exact skipLines_of_tight tight
  | @blank c cs blank _ ih =>
    rw [List.cons_append, skipLines]
    · simp [blank, ih]
    · rintro _ rfl
      cases blank
  | newLine newLine _ ih =>
    cases newLine with
    | feed => simp [skipLines, ih]
    | carriage => simp [skipLines, ih]

theorem skipTrivia_append {trivia rest : List Char} (h : Trivia trivia) (tight : Tight rest)
    (other : ∀ c ∈ rest.head?, c ≠ '#') {steps : Nat} (enough : trivia.length ≤ steps) :
    skipTrivia steps (trivia ++ rest) = rest := by
  induction h generalizing steps with
  | @gap cs gap =>
    cases steps with
    | zero =>
      obtain rfl := List.eq_nil_of_length_eq_zero (Nat.le_zero.1 enough)
      rfl
    | succ steps =>
      rw [skipTrivia, skipLines_append gap tight]
      split
      · exact absurd rfl (other '#' rfl)
      · rfl
  | @comment front comment nl cs gap plain newLine _ ih =>
    cases steps with
    | zero => simp at enough
    | succ steps =>
      have hash : Tight ('#' :: (comment ++ (nl ++ (cs ++ rest)))) :=
        tight_cons _ (by decide) (by decide) rfl
      have ended : (comment ++ (nl ++ (cs ++ rest))).dropWhile isPlain = nl ++ (cs ++ rest) :=
        (Text.span_append plain (newLine.head rfl rfl)).2
      simp only [List.append_assoc, List.cons_append, List.length_append, List.length_cons]
        at enough ⊢
      simp only [skipTrivia, skipLines_append gap hash, ended, newLine?_append newLine]
      exact ih (by omega)

/-! ## Escapes -/

/-- How a character may be written behind a backslash: by a letter that stands for it, or by its
code point in four or eight hexadecimal digits. -/
inductive SpellsEscape (c : Char) : List Char → Prop
  | short {letter : Char} (stands : shortEscape? letter = some c) : SpellsEscape c [letter]
  | four {ds : List Char} (width : ds.length = 4) (digits : Text.hexNumber? ds = some c.toNat) :
      SpellsEscape c ('u' :: ds)
  | eight {ds : List Char} (width : ds.length = 8) (digits : Text.hexNumber? ds = some c.toNat) :
      SpellsEscape c ('U' :: ds)

theorem codePoint?_append {c : Char} {ds : List Char} {n : Nat} (width : ds.length = n)
    (digits : Text.hexNumber? ds = some c.toNat) (rest : List Char) :
    codePoint? n (ds ++ rest) = some (c, rest) := by
  have valid : c.toNat.isValidChar := c.valid
  subst width
  simp [codePoint?, digits, valid]

theorem escape?_append {c : Char} {own : List Char} (spelled : SpellsEscape c own)
    (rest : List Char) : escape? (own ++ rest) = some (c, rest) := by
  cases spelled with
  | @short letter stands =>
    have code : letter ≠ 'u' ∧ letter ≠ 'U' := by
      constructor <;> · rintro rfl; cases stands
    simp [escape?, code, stands]
  | four width digits => exact codePoint?_append width digits rest
  | eight width digits => exact codePoint?_append width digits rest

theorem tight_of_escape {c : Char} {own : List Char} (spelled : SpellsEscape c own)
    (rest : List Char) : Tight (own ++ rest) := by
  cases spelled with
  | @short letter stands =>
    refine tight_cons rest ?_ ?_ ?_
    · rintro rfl
      cases stands
    · rintro rfl
      cases stands
    · unfold shortEscape? at stands
      split at stands
      case h_8 => cases stands
      all_goals rfl
  | four | eight => exact tight_cons _ (by decide) (by decide) rfl

/-! ## Strings on one line -/

/-- How the characters of a string with escapes may be written. -/
inductive SpellsBasic : List Char → List Char → Prop
  | nil : SpellsBasic [] []
  | plain {c : Char} {s cs : List Char} (plain : isPlain c = true) (quote : c ≠ '"')
      (backslash : c ≠ '\\') (others : SpellsBasic s cs) : SpellsBasic (c :: s) (c :: cs)
  | escape {c : Char} {s own cs : List Char} (escape : SpellsEscape c own)
      (others : SpellsBasic s cs) : SpellsBasic (c :: s) ('\\' :: (own ++ cs))

theorem basic?_append {s cs : List Char} (spelled : SpellsBasic s cs) {steps : Nat}
    (enough : cs.length < steps) (rest : List Char) :
    basic? steps (cs ++ '"' :: rest) = some (s, rest) := by
  induction spelled generalizing steps with
  | nil =>
    obtain ⟨steps, rfl⟩ := Nat.exists_eq_add_one_of_ne_zero (Nat.ne_zero_of_lt enough)
    simp [basic?]
  | @plain c s cs plain quote backslash _ ih =>
    obtain ⟨steps, rfl⟩ := Nat.exists_eq_add_one_of_ne_zero (Nat.ne_zero_of_lt enough)
    have read : basic? steps (cs ++ '"' :: rest) = some (s, rest) :=
      ih (Nat.lt_of_succ_lt_succ enough)
    rw [List.cons_append, basic?, if_pos plain, read]
    · rfl
    · exact quote
    · exact backslash
  | @escape c s own cs escape _ ih =>
    obtain ⟨steps, rfl⟩ := Nat.exists_eq_add_one_of_ne_zero (Nat.ne_zero_of_lt enough)
    have read : basic? steps (cs ++ '"' :: rest) = some (s, rest) := ih (by simp at enough; omega)
    simp [basic?, escape?_append escape, read]

/-- The characters of a string without escapes stand as they are. -/
def IsLiteral (s : List Char) : Prop := ∀ c ∈ s, isPlain c = true ∧ c ≠ '\''

theorem literal?_append {s : List Char} (literal : IsLiteral s) (rest : List Char) :
    literal? (s ++ '\'' :: rest) = some (s, rest) := by
  have own : ∀ c ∈ s, (isPlain c && c != '\'') = true := by
    intro c mem
    simpa using literal c mem
  have stop : ∀ c ∈ ('\'' :: rest).head?, (isPlain c && c != '\'') = false := by simp
  obtain ⟨front, behind⟩ := Text.span_append own stop
  simp only [literal?, front, behind]

/-! ## Strings over lines -/

def IsQuote (q : Char) : Prop := q = '"' ∨ q = '\''

instance (q : Char) : Decidable (IsQuote q) := inferInstanceAs (Decidable (_ ∨ _))

/-- How a string over lines may be written behind its opening quotes, up to the quotes that close
it. Between double quotes there may be escapes. -/
inductive SpellsLines (q : Char) : List Char → List Char → Prop
  /-- Up to two quotes in front of the three that close the string belong to it. -/
  | close {n : Nat} (few : n ≤ 2) : SpellsLines q (List.replicate n q) (List.replicate (n + 3) q)
  | quotes {n : Nat} {s cs : List Char} (one : 1 ≤ n) (few : n ≤ 2) (other : ∀ c ∈ cs.head?, c ≠ q)
      (others : SpellsLines q s cs) :
      SpellsLines q (List.replicate n q ++ s) (List.replicate n q ++ cs)
  | newLine {s nl cs : List Char} (newLine : IsNewLine nl) (others : SpellsLines q s cs) :
      SpellsLines q ('\n' :: s) (nl ++ cs)
  | plain {c : Char} {s cs : List Char} (plain : isPlain c = true) (quote : c ≠ q)
      (backslash : q = '"' → c ≠ '\\') (others : SpellsLines q s cs) :
      SpellsLines q (c :: s) (c :: cs)
  | escape {c : Char} {s own cs : List Char} (escapes : q = '"') (escape : SpellsEscape c own)
      (others : SpellsLines q s cs) : SpellsLines q (c :: s) ('\\' :: (own ++ cs))
  /-- A backslash at the end of a line stands for nothing, and so does what is blank behind it. -/
  | joined {s blanks nl skipped cs : List Char} (escapes : q = '"')
      (blank : IsBlanks blanks) (newLine : IsNewLine nl) (gap : Gap skipped) (tight : Tight cs)
      (others : SpellsLines q s cs) :
      SpellsLines q s ('\\' :: (blanks ++ (nl ++ (skipped ++ cs))))

theorem quotes_replicate {q : Char} {cs : List Char} (other : ∀ c ∈ cs.head?, c ≠ q) (n : Nat) :
    quotes q (List.replicate n q ++ cs) = n := by
  have own : ∀ c ∈ List.replicate n q, (c == q) = true := by
    intro c mem
    simpa using List.eq_of_mem_replicate mem
  have stop : ∀ c ∈ cs.head?, (c == q) = false := by
    intro c first
    simpa using other c first
  rw [quotes, (Text.span_append own stop).1, List.length_replicate]

theorem quotes_of_other {q : Char} {cs : List Char} (other : ∀ c ∈ cs.head?, c ≠ q) :
    quotes q cs = 0 := quotes_replicate other 0

section
variable {q : Char} {s cs : List Char}

/-- Inside a line a character stands for itself, unless it begins an escape. -/
theorem multiline?_cons {c : Char} (quote : c ≠ q) (feed : c ≠ '\n') (carriage : c ≠ '\r')
    (escapes : Bool) (steps : Nat) (cs : List Char) :
    multiline? q escapes (steps + 1) (c :: cs) =
      if escapes && c == '\\' then
        match newLine? (skipBlanks cs) with
        | some cs => multiline? q escapes steps (skipLines cs)
        | none => (escape? cs).bind fun e =>
          (multiline? q escapes steps e.2).map fun r => (e.1 :: r.1, r.2)
      else if isPlain c then (multiline? q escapes steps cs).map fun r => (c :: r.1, r.2)
      else none := by
  have other : ∀ d ∈ (c :: cs).head?, d ≠ q := by
    rintro _ ⟨⟩
    exact quote
  have onLine : OnLine (c :: cs) := by
    rintro _ ⟨⟩
    exact ⟨feed, carriage⟩
  simp only [multiline?, quotes_of_other other, newLine?_of_onLine onLine]
  rw [if_neg (by omega), if_neg (by omega)]
  cases newLine? (skipBlanks cs) with
  | some cs => rfl
  | none =>
    cases escape? cs with
    | none => rfl
    | some e =>
      simp only [Option.bind_eq_bind, Option.bind_some]
      cases multiline? q escapes steps e.2 <;> rfl

theorem ne_nil_of_lines (spelled : SpellsLines q s cs) : cs ≠ [] := by
  cases spelled with
  | close few => simp
  | quotes one few other others => simp; omega
  | newLine newLine others => cases newLine <;> simp
  | plain | escape | joined => simp

theorem multiline?_append (spelled : SpellsLines q s cs) (quote : IsQuote q) {steps : Nat}
    (enough : cs.length ≤ steps) {rest : List Char} (stop : ∀ c ∈ rest.head?, c ≠ q) :
    multiline? q (q == '"') steps (cs ++ rest) = some (s, rest) := by
  have apart : q ≠ '\n' ∧ q ≠ '\r' ∧ q ≠ '\\' := by
    rcases quote with rfl | rfl <;> decide
  induction spelled generalizing steps with
  | @close n few =>
    rw [List.length_replicate] at enough
    obtain ⟨steps, rfl⟩ := Nat.exists_eq_add_one_of_ne_zero (show steps ≠ 0 by omega)
    have dropped : (List.replicate (n + 3) q ++ rest).drop (n + 3) = rest :=
      List.drop_left' (List.length_replicate ..)
    simp only [multiline?, quotes_replicate stop, dropped]
    rw [if_pos (by omega), if_pos (by omega), Nat.add_sub_cancel]
  | @quotes n s cs one few other _ ih =>
    rw [List.length_append, List.length_replicate] at enough
    obtain ⟨steps, rfl⟩ := Nat.exists_eq_add_one_of_ne_zero (show steps ≠ 0 by omega)
    have behind : ∀ c ∈ (cs ++ rest).head?, c ≠ q := head_append other stop
    have dropped : (List.replicate n q ++ (cs ++ rest)).drop n = cs ++ rest :=
      List.drop_left' (List.length_replicate ..)
    rw [List.append_assoc]
    simp only [multiline?, quotes_replicate behind, dropped]
    rw [if_neg (by omega), if_pos one, ih (by omega)]
    rfl
  | @newLine s nl cs newLine _ ih =>
    have := newLine.length_pos
    rw [List.length_append] at enough
    obtain ⟨steps, rfl⟩ := Nat.exists_eq_add_one_of_ne_zero (show steps ≠ 0 by omega)
    have other : ∀ c ∈ (nl ++ (cs ++ rest)).head?, c ≠ q :=
      newLine.head apart.1.symm apart.2.1.symm
    rw [List.append_assoc]
    simp only [multiline?, quotes_of_other other, newLine?_append newLine]
    rw [if_neg (by omega), if_neg (by omega), ih (by omega)]
    rfl
  | @plain c s cs plain quote backslash _ ih =>
    obtain ⟨steps, rfl⟩ := Nat.exists_eq_add_one_of_ne_zero (Nat.ne_zero_of_lt enough)
    have feed : c ≠ '\n' ∧ c ≠ '\r' := by
      constructor <;> · rintro rfl; cases plain
    have stands : (q == '"' && c == '\\') = false := by simpa using backslash
    rw [List.cons_append, multiline?_cons quote feed.1 feed.2, stands, plain,
      ih (Nat.le_of_succ_le_succ enough)]
    rfl
  | @escape c s own cs escapes escape _ ih =>
    obtain ⟨steps, rfl⟩ := Nat.exists_eq_add_one_of_ne_zero (Nat.ne_zero_of_lt enough)
    rw [List.length_cons, List.length_append] at enough
    -- what follows the backslash is no line end, not even behind blanks
    have tight := tight_of_escape escape (cs ++ rest)
    have escaped : (q == '"' && '\\' == '\\') = true := by simp [escapes]
    rw [List.cons_append, List.append_assoc, multiline?_cons apart.2.2.symm (by decide) (by decide),
      escaped, skipBlanks_self tight.2, newLine?_of_onLine tight.1, escape?_append escape]
    simp [ih (show cs.length ≤ steps by omega)]
  | @joined s blanks nl skipped cs escapes blank newLine gap tight others ih =>
    obtain ⟨steps, rfl⟩ := Nat.exists_eq_add_one_of_ne_zero (Nat.ne_zero_of_lt enough)
    simp only [List.length_cons, List.length_append] at enough
    have stop : ∀ c ∈ (nl ++ (skipped ++ (cs ++ rest))).head?, isBlank c = false :=
      newLine.head rfl rfl
    have tight : Tight (cs ++ rest) := by
      cases cs with
      | nil => exact absurd rfl (ne_nil_of_lines others)
      | cons c cs => exact tight
    have escaped : (q == '"' && '\\' == '\\') = true := by simp [escapes]
    simp only [List.cons_append, List.append_assoc]
    rw [multiline?_cons apart.2.2.symm (by decide) (by decide), escaped,
      skipBlanks_append blank stop, newLine?_append newLine]
    simp only [if_true, skipLines_append gap tight]
    exact ih (by omega)

end

/-! ## Strings and keys -/

/-- The ways to write a string. A line end straight behind three opening quotes is no part of
it. -/
inductive SpellsString : List Char → List Char → Prop
  | basic {s cs : List Char} (spelled : SpellsBasic s cs) : SpellsString s ('"' :: (cs ++ ['"']))
  | literal {s : List Char} (literal : IsLiteral s) : SpellsString s ('\'' :: (s ++ ['\'']))
  | lines {q : Char} {s cs : List Char} (quote : IsQuote q) (onLine : OnLine cs)
      (spelled : SpellsLines q s cs) : SpellsString s (q :: q :: q :: cs)
  | linesBelow {q : Char} {s nl cs : List Char} (quote : IsQuote q) (newLine : IsNewLine nl)
      (spelled : SpellsLines q s cs) : SpellsString s (q :: q :: q :: (nl ++ cs))

/-- Characters that are plain may stand between single quotes as they are. -/
theorem SpellsString.of_all {s : List Char}
    (plain : s.all (fun c => isPlain c && c != '\'') = true) :
    SpellsString s ('\'' :: (s ++ ['\''])) :=
  .literal fun c mem => by simpa using List.all_eq_true.1 plain c mem

theorem opened_append {nl : List Char} (newLine : IsNewLine nl) (rest : List Char) :
    opened (nl ++ rest) = rest := by
  rw [opened, newLine?_append newLine]
  rfl

theorem opened_of_onLine {cs : List Char} (onLine : OnLine cs) : opened cs = cs := by
  rw [opened, newLine?_of_onLine onLine]
  rfl

theorem string?_of_lines {q : Char} (quote : IsQuote q) (cs : List Char) :
    string? (q :: q :: q :: cs) = multiline? q (q == '"') (cs.length + 1) (opened cs) := by
  rcases quote with rfl | rfl <;> rfl

/-- What a string on one line may not look like: two quotes behind the opening one. -/
def Tripled (q : Char) (cs : List Char) : Prop := ∃ ds, cs = q :: q :: ds

theorem string?_of_basic {cs : List Char} (single : ¬ Tripled '"' cs) :
    string? ('"' :: cs) = basic? (cs.length + 1) cs := by
  rw [string?]
  intro ds tripled
  exact single ⟨ds, tripled⟩

theorem string?_of_literal {cs : List Char} (single : ¬ Tripled '\'' cs) :
    string? ('\'' :: cs) = literal? cs := by
  rw [string?]
  intro ds tripled
  exact single ⟨ds, tripled⟩

theorem not_tripled_basic {s cs rest : List Char} (spelled : SpellsBasic s cs)
    (stop : ∀ c ∈ rest.head?, c ≠ '"') : ¬ Tripled '"' (cs ++ '"' :: rest) := by
  rintro ⟨ds, tripled⟩
  cases spelled with
  | nil =>
    obtain ⟨-, rfl⟩ := List.cons.inj tripled
    exact stop '"' rfl rfl
  | plain plain quote => exact quote (List.cons.inj tripled).1
  | escape => exact absurd (List.cons.inj tripled).1 (by decide)

theorem not_tripled_literal {s rest : List Char} (literal : IsLiteral s)
    (stop : ∀ c ∈ rest.head?, c ≠ '\'') : ¬ Tripled '\'' (s ++ '\'' :: rest) := by
  rintro ⟨ds, tripled⟩
  cases s with
  | nil =>
    obtain ⟨-, rfl⟩ := List.cons.inj tripled
    exact stop '\'' rfl rfl
  | cons c s => exact (literal c List.mem_cons_self).2 (List.cons.inj tripled).1

/-- **A string is read in whatever way it is written.** -/
theorem string?_append {s cs rest : List Char} (spelled : SpellsString s cs)
    (stop : ∀ c ∈ rest.head?, ¬ IsQuote c) : string? (cs ++ rest) = some (s, rest) := by
  cases spelled with
  | @basic _ cs spelled =>
    have single := not_tripled_basic spelled fun c first same => stop c first (.inl same)
    rw [List.cons_append, List.append_assoc, List.singleton_append, string?_of_basic single]
    exact basic?_append spelled (by rw [List.length_append]; omega) rest
  | literal literal =>
    have single := not_tripled_literal literal fun c first same => stop c first (.inr same)
    rw [List.cons_append, List.append_assoc, List.singleton_append, string?_of_literal single]
    exact literal?_append literal rest
  | @lines q _ cs quote onLine spelled =>
    have other : ∀ c ∈ rest.head?, c ≠ q := by
      rintro c first rfl
      exact stop c first quote
    have onLine : OnLine (cs ++ rest) := by
      cases cs with
      | nil => exact absurd rfl (ne_nil_of_lines spelled)
      | cons c cs => exact onLine
    simp only [List.cons_append, string?_of_lines quote, opened_of_onLine onLine]
    exact multiline?_append spelled quote (by simp; omega) other
  | @linesBelow q _ nl cs quote newLine spelled =>
    have other : ∀ c ∈ rest.head?, c ≠ q := by
      rintro c first rfl
      exact stop c first quote
    simp only [List.cons_append, List.append_assoc, string?_of_lines quote, opened_append newLine]
    exact multiline?_append spelled quote (by simp; omega) other

/-- The ways to write a name. -/
inductive SpellsKey : List Char → List Char → Prop
  | bare {name : List Char} (some : name ≠ []) (bare : ∀ c ∈ name, isBare c = true) :
      SpellsKey name name
  | basic {name cs : List Char} (spelled : SpellsBasic name cs) :
      SpellsKey name ('"' :: (cs ++ ['"']))
  | literal {name : List Char} (literal : IsLiteral name) :
      SpellsKey name ('\'' :: (name ++ ['\'']))

theorem SpellsKey.of_all {name : List Char} (some : name ≠ []) (bare : name.all isBare = true) :
    SpellsKey name name := .bare some (List.all_eq_true.1 bare)

theorem simpleKey?_append {name cs rest : List Char} (spelled : SpellsKey name cs)
    (stop : ∀ c ∈ rest.head?, isBare c = false) :
    simpleKey? (cs ++ rest) = some (String.ofList name, rest) := by
  cases spelled with
  | bare some bare =>
    obtain ⟨front, behind⟩ := Text.span_append bare stop
    obtain ⟨c, others, rfl⟩ := List.exists_cons_of_ne_nil some
    have quote : c ≠ '"' ∧ c ≠ '\'' := by
      constructor <;> · rintro rfl; cases bare _ List.mem_cons_self
    rw [List.cons_append] at front behind ⊢
    rw [simpleKey?, front, behind]
    · exact fun _ same => quote.1 (List.cons.inj same).1
    · exact fun _ same => quote.2 (List.cons.inj same).1
  | @basic cs spelled =>
    rw [List.cons_append, List.append_assoc, List.singleton_append, simpleKey?,
      basic?_append spelled (by rw [List.length_append]; omega)]
    rfl
  | literal literal =>
    rw [List.cons_append, List.append_assoc, List.singleton_append, simpleKey?,
      literal?_append literal]
    rfl

end RowFilter.Toml
