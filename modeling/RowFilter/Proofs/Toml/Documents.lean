import RowFilter.Proofs.Toml.Spelling
import RowFilter.Toml.Reader

/-!
# Documents read back

A document of names with strings and arrays of strings is a row of lines, each
with one name or none. It may be written in many ways: strings with escapes or
over lines, arrays over lines, blanks and comments wherever they may stand, the
line ends of either kind.

* `SpellsStrings`, `SpellsLine`, `SpellsDocument`: the ways to write a document;
* `statements?_append`: its lines are read as they were written;
* `ofStatements?_keys`: the lines make the table with their names in order;
* `parse?_of_written`: so that the document is parsed to what was written.
-/

namespace RowFilter.Toml

/-! ## Values -/

/-- How strings may be written behind the bracket that opens an array, up to the one that closes
it. A comma may stand behind the last string. -/
inductive SpellsStrings : List String → List Char → Prop
  | close {front : List Char} (trivia : Trivia front) : SpellsStrings [] (front ++ [']'])
  | last {s : String} {front cs behind : List Char} (before : Trivia front)
      (spelled : SpellsString s.toList cs) (after : Trivia behind) :
      SpellsStrings [s] (front ++ (cs ++ (behind ++ [']'])))
  | next {s : String} {ss : List String} {front cs behind ds : List Char} (before : Trivia front)
      (spelled : SpellsString s.toList cs) (after : Trivia behind) (others : SpellsStrings ss ds) :
      SpellsStrings (s :: ss) (front ++ (cs ++ (behind ++ ',' :: ds)))

/-- The ways to write a string or an array of strings. -/
inductive SpellsValue : Item → List Char → Prop
  | string {s : String} {cs : List Char} (spelled : SpellsString s.toList cs) :
      SpellsValue (.string s) cs
  | array {ss : List String} {cs : List Char} (spelled : SpellsStrings ss cs) :
      SpellsValue (.array (ss.map .string)) ('[' :: cs)

theorem exists_cons_of_string {s cs : List Char} (spelled : SpellsString s cs) :
    ∃ q ds, cs = q :: ds ∧ IsQuote q := by
  cases spelled with
  | basic => exact ⟨'"', _, rfl, .inl rfl⟩
  | literal => exact ⟨'\'', _, rfl, .inr rfl⟩
  | lines quote | linesBelow quote => exact ⟨_, _, rfl, quote⟩

theorem tight_of_quote {q : Char} (quote : IsQuote q) (cs : List Char) : Tight (q :: cs) := by
  rcases quote with rfl | rfl <;> exact tight_cons cs (by decide) (by decide) rfl

theorem not_quote_of_gap {gap rest : List Char} (h : Gap gap)
    (stop : ∀ c ∈ rest.head?, ¬ IsQuote c) : ∀ c ∈ (gap ++ rest).head?, ¬ IsQuote c := by
  cases h with
  | nil => exact stop
  | blank blank => rintro _ ⟨⟩ (rfl | rfl) <;> cases blank
  | newLine newLine =>
    rw [List.append_assoc]
    exact newLine.head (by decide) (by decide)

/-- What stands between the parts of an array does not prolong a string in front of it. -/
theorem not_quote_of_trivia {trivia rest : List Char} (h : Trivia trivia)
    (stop : ∀ c ∈ rest.head?, ¬ IsQuote c) : ∀ c ∈ (trivia ++ rest).head?, ¬ IsQuote c := by
  cases h with
  | gap h => exact not_quote_of_gap h stop
  | comment h =>
    rw [List.append_assoc]
    exact not_quote_of_gap h (by rintro _ ⟨⟩; decide)

theorem value?_string {s cs rest : List Char} (spelled : SpellsString s cs)
    (stop : ∀ c ∈ rest.head?, ¬ IsQuote c) (depth : Nat) :
    value? depth (cs ++ rest) = some (.string (String.ofList s), rest) := by
  have read := string?_append spelled stop
  obtain ⟨q, ds, rfl, quote⟩ := exists_cons_of_string spelled
  rw [List.cons_append] at read ⊢
  rcases quote with rfl | rfl
  · rw [value?, read]
    rfl
  · rw [value?, read]
    rfl

theorem skipTrivia_length {trivia rest : List Char} (h : Trivia trivia) (tight : Tight rest)
    (other : ∀ c ∈ rest.head?, c ≠ '#') :
    skipTrivia (trivia ++ rest).length (trivia ++ rest) = rest :=
  skipTrivia_append h tight other (by simp)

theorem items?_string {s front cs : List Char} (before : Trivia front)
    (spelled : SpellsString s cs) {rest : List Char} (stop : ∀ c ∈ rest.head?, ¬ IsQuote c)
    (depth steps : Nat) :
    items? (value? depth) (steps + 1) (front ++ (cs ++ rest)) =
      match skipTrivia rest.length rest with
      | ',' :: ds => (items? (value? depth) steps ds).map fun r =>
          (.string (String.ofList s) :: r.1, r.2)
      | ']' :: ds => some ([.string (String.ofList s)], ds)
      | _ => none := by
  have read := value?_string spelled stop depth
  obtain ⟨q, ds, rfl, quote⟩ := exists_cons_of_string spelled
  have other : ∀ c ∈ (q :: (ds ++ rest)).head?, c ≠ '#' := by
    rintro _ ⟨⟩
    rcases quote with rfl | rfl <;> decide
  rw [List.cons_append] at read ⊢
  rw [items?, skipTrivia_length before (tight_of_quote quote _) other]
  split
  · next closed =>
    obtain ⟨rfl, -⟩ := List.cons.inj closed
    rcases quote with same | same <;> cases same
  · simp only [read, Option.map_eq_bind, Function.comp_def]
    rfl

theorem items?_append {ss : List String} {cs : List Char} (spelled : SpellsStrings ss cs)
    {steps : Nat} (enough : cs.length ≤ steps) (depth : Nat) (rest : List Char) :
    items? (value? depth) steps (cs ++ rest) = some (ss.map .string, rest) := by
  have close : Tight (']' :: rest) := tight_cons rest (by decide) (by decide) rfl
  induction spelled generalizing steps with
  | close trivia =>
    rw [List.length_append, List.length_singleton] at enough
    obtain ⟨steps, rfl⟩ := Nat.exists_eq_add_one_of_ne_zero (show steps ≠ 0 by omega)
    rw [List.append_assoc, List.singleton_append, items?,
      skipTrivia_length trivia close (by simp)]
    rfl
  | @last s front cs behind before spelled after =>
    simp only [List.length_append, List.length_singleton] at enough
    obtain ⟨steps, rfl⟩ := Nat.exists_eq_add_one_of_ne_zero (show steps ≠ 0 by omega)
    have stop : ∀ c ∈ (behind ++ ']' :: rest).head?, ¬ IsQuote c :=
      not_quote_of_trivia after (by simp [IsQuote])
    simp only [List.append_assoc, List.singleton_append]
    rw [items?_string before spelled stop, skipTrivia_length after close (by simp)]
    simp
  | @next s ss front cs behind ds before spelled after others ih =>
    simp only [List.length_append, List.length_cons] at enough
    obtain ⟨steps, rfl⟩ := Nat.exists_eq_add_one_of_ne_zero (show steps ≠ 0 by omega)
    have stop : ∀ c ∈ (behind ++ ',' :: (ds ++ rest)).head?, ¬ IsQuote c :=
      not_quote_of_trivia after (by simp [IsQuote])
    have comma : Tight (',' :: (ds ++ rest)) := tight_cons _ (by decide) (by decide) rfl
    simp only [List.append_assoc, List.cons_append]
    rw [items?_string before spelled stop, skipTrivia_length after comma (by simp)]
    simp [ih (show ds.length ≤ steps by omega)]

theorem value?_append {item : Item} {cs rest : List Char} (spelled : SpellsValue item cs)
    (stop : ∀ c ∈ rest.head?, ¬ IsQuote c) (depth : Nat) :
    value? (depth + 1) (cs ++ rest) = some (item, rest) := by
  cases spelled with
  | string spelled => simpa using value?_string spelled stop (depth + 1)
  | @array ss cs spelled =>
    have enough : cs.length ≤ (cs ++ rest).length + 1 := by
      rw [List.length_append]; omega
    have read := items?_append spelled enough depth rest
    rw [List.cons_append, value?, read]
    rfl

/-! ## Lines -/

/-- A comment up to the end of its line, or none. -/
inductive IsComment : List Char → Prop
  | none : IsComment []
  | comment {cs : List Char} (plain : ∀ c ∈ cs, isPlain c = true) : IsComment ('#' :: cs)

/-- The ways to write one line: with nothing but a comment, or with one name. -/
inductive SpellsLine : Entries → List Char → Prop
  | empty {front remark : List Char} (indent : IsBlanks front) (comment : IsComment remark) :
      SpellsLine [] (front ++ remark)
  | entry {name : String} {item : Item} {front key before after cs behind remark : List Char}
      (indent : IsBlanks front) (named : SpellsKey name.toList key) (left : IsBlanks before)
      (right : IsBlanks after) (value : SpellsValue item cs) (trail : IsBlanks behind)
      (comment : IsComment remark) :
      SpellsLine [(name, item)]
        (front ++ (key ++ (before ++ '=' :: (after ++ (cs ++ (behind ++ remark))))))

/-- What follows a line: nothing, or a line end and the next lines. -/
inductive Follows : List Char → List Char → Prop
  | nothing : Follows [] []
  | lines {nl : List Char} (newLine : IsNewLine nl) (next : List Char) : Follows (nl ++ next) next

/-- The lines of a document, the last of which need not end. -/
inductive SpellsDocument : Entries → List Char → Prop
  | last {es : Entries} {cs : List Char} (line : SpellsLine es cs) : SpellsDocument es cs
  | line {es more : Entries} {cs nl ds : List Char} (line : SpellsLine es cs)
      (newLine : IsNewLine nl) (others : SpellsDocument more ds) :
      SpellsDocument (es ++ more) (cs ++ (nl ++ ds))

/-- The statement of a line with a name. -/
def Statement.ofEntry (e : String × Item) : Statement := .key [] e.1 e.2

section
variable {p : Char → Prop}

theorem IsComment.head {remark : List Char} (comment : IsComment remark) (hash : p '#') :
    ∀ c ∈ remark.head?, p c := by
  cases comment with
  | none => nofun
  | comment => rintro _ ⟨⟩; exact hash

theorem Follows.head {rest next : List Char} (follows : Follows rest next) (feed : p '\n')
    (carriage : p '\r') : ∀ c ∈ rest.head?, p c := by
  cases follows with
  | nothing => nofun
  | lines newLine => exact newLine.head feed carriage

end

section
variable {rest next : List Char} (follows : Follows rest next)
include follows

theorem skipComment_append {remark : List Char} (h : IsComment remark) :
    skipComment (remark ++ rest) = rest := by
  cases follows with
  | nothing =>
    cases h with
    | none => rfl
    | comment plain => exact (Text.span_append plain (by simp)).2
  | lines newLine next =>
    cases h with
    | none => cases newLine <;> rfl
    | comment plain => exact (Text.span_append plain (newLine.head rfl rfl)).2

/-- Behind the value of a line only blanks and a comment are left. -/
theorem restOfLine?_append {behind remark : List Char} (trail : IsBlanks behind)
    (h : IsComment remark) : restOfLine? (behind ++ (remark ++ rest)) = some next := by
  have stop : ∀ c ∈ (remark ++ rest).head?, isBlank c = false :=
    head_append (h.head rfl) (follows.head rfl rfl)
  rw [restOfLine?, skipBlanks_append trail stop, skipComment_append follows h]
  cases follows with
  | nothing => rfl
  | lines newLine next => cases newLine <;> rfl

end

/-- The characters that can stand where a key could begin and do not begin one. -/
def apart : List Char := ['[', '#', '\n', '\r', ' ', '\t', '\ufeff']

theorem exists_cons_of_key {name cs : List Char} (named : SpellsKey name cs) :
    ∃ c ds, cs = c :: ds ∧ c ∉ apart := by
  cases named with
  | bare some bare =>
    obtain ⟨c, ds, rfl⟩ := List.exists_cons_of_ne_nil some
    have none : apart.all (fun d => !isBare d) = true := by decide
    refine ⟨c, ds, rfl, fun mem => ?_⟩
    have other := List.all_eq_true.1 none c mem
    rw [bare c List.mem_cons_self] at other
    cases other
  | basic => exact ⟨'"', _, rfl, by decide⟩
  | literal => exact ⟨'\'', _, rfl, by decide⟩

theorem not_isBlank_of_value {item : Item} {cs rest : List Char} (value : SpellsValue item cs) :
    ∀ c ∈ (cs ++ rest).head?, isBlank c = false := by
  cases value with
  | string spelled =>
    obtain ⟨q, ds, rfl, quote⟩ := exists_cons_of_string spelled
    exact (tight_of_quote quote (ds ++ rest)).2
  | array => rintro _ ⟨⟩; rfl

section
variable {name : String} {key before rest : List Char} (named : SpellsKey name.toList key)
include named

theorem not_isBlank_of_key : ∀ c ∈ (key ++ rest).head?, isBlank c = false := by
  obtain ⟨c, ds, rfl, other⟩ := exists_cons_of_key named
  rintro _ ⟨⟩
  simp_all [apart, isBlank]

theorem key?_append (left : IsBlanks before) :
    key? (key ++ (before ++ '=' :: rest)) = some (([], name), '=' :: rest) := by
  have sign : skipBlanks (before ++ '=' :: rest) = '=' :: rest :=
    skipBlanks_append left (by simp [isBlank])
  have stop : ∀ c ∈ (before ++ '=' :: rest).head?, isBare c = false :=
    head_append (left.head rfl rfl) (by simp [isBare])
  have read := simpleKey?_append named stop
  rw [key?, names?, skipBlanks_self (not_isBlank_of_key named), read]
  simp [sign, depthLimit]

theorem keyValue?_append (left : IsBlanks before) {item : Item} {after cs : List Char}
    (right : IsBlanks after) (value : SpellsValue item cs) (stop : ∀ c ∈ rest.head?, ¬ IsQuote c)
    (depth : Nat) :
    keyValue? (value? (depth + 1)) (key ++ (before ++ '=' :: (after ++ (cs ++ rest)))) =
      some ((([], name), item), rest) := by
  have start : skipBlanks (after ++ (cs ++ rest)) = cs ++ rest :=
    skipBlanks_append right (not_isBlank_of_value value)
  rw [keyValue?, key?_append named left]
  simp [mark?, start, value?_append value stop]

end

theorem eq_nil_of_statements? {steps : Nat} {more : List Statement}
    (read : statements? steps [] = some more) : more = [] := by
  cases steps with
  | zero => cases read
  | succ steps => exact (Option.some.inj read).symm

/-- **A line is read as it was written**, and the reader goes on with the next one. -/
theorem statements?_append {es : Entries} {cs rest next : List Char} (line : SpellsLine es cs)
    (follows : Follows rest next) {steps : Nat} {more : List Statement}
    (read : statements? steps next = some more) :
    statements? (steps + 1) (cs ++ rest) = some (es.map .ofEntry ++ more) := by
  cases line with
  | @empty front remark indent comment =>
    have rested : restOfLine? (remark ++ rest) = some next :=
      restOfLine?_append follows (List.forall_mem_nil _) comment
    have stop : ∀ c ∈ (remark ++ rest).head?, isBlank c = false :=
      head_append (comment.head rfl) (follows.head rfl rfl)
    rw [List.append_assoc, statements?, skipBlanks_append indent stop]
    cases comment with
    | comment =>
      rw [List.cons_append] at rested ⊢
      simp [rested, read]
    | none =>
      cases follows with
      | nothing => rw [eq_nil_of_statements? read]; rfl
      | lines newLine =>
        cases newLine <;>
        · simp only [List.nil_append, List.cons_append] at rested ⊢
          simp [newLine?, rested, read]
  | @entry _ _ _ _ _ _ _ behind remark indent named left right value trail comment =>
    have stop : ∀ c ∈ (behind ++ (remark ++ rest)).head?, ¬ IsQuote c :=
      head_append (trail.head (by decide) (by decide))
        (head_append (comment.head (by decide)) (follows.head (by decide) (by decide)))
    have keyed := keyValue?_append named left right value stop 78
    have rested := restOfLine?_append follows trail comment
    simp only [List.append_assoc, List.cons_append]
    rw [statements?, skipBlanks_append indent (not_isBlank_of_key named)]
    obtain ⟨c, ds, rfl, other⟩ := exists_cons_of_key named
    rw [List.cons_append] at keyed ⊢
    simp only [apart, List.mem_cons, not_or] at other
    obtain ⟨bracket, hash, feed, carriage, -⟩ := other
    have onLine : ∀ ds, newLine? (c :: ds) = none := fun ds => newLine?_of_onLine (by
      rintro _ ⟨⟩
      exact ⟨feed, carriage⟩)
    split
    · next same => cases same
    · next same => exact absurd (List.cons.inj same).1 bracket
    · next same => exact absurd (List.cons.inj same).1 bracket
    · rw [if_neg (by simp [onLine, hash]), depthLimit, keyed]
      simp [rested, read, Statement.ofEntry]

theorem eq_nil_of_line {es : Entries} {cs : List Char} (line : SpellsLine es cs)
    (empty : cs = []) : es = [] := by
  cases line with
  | empty => rfl
  | entry => simp at empty

theorem statements?_of_document {es : Entries} {cs : List Char} (spelled : SpellsDocument es cs)
    {steps : Nat} (enough : cs.length < steps) :
    statements? steps cs = some (es.map .ofEntry) := by
  induction spelled generalizing steps with
  | @last es cs line =>
    obtain ⟨steps, rfl⟩ := Nat.exists_eq_add_one_of_ne_zero (Nat.ne_zero_of_lt enough)
    cases steps with
    | zero =>
      -- no step is left behind this line, which can only be in an empty text
      obtain rfl := List.eq_nil_of_length_eq_zero (Nat.lt_one_iff.1 enough)
      obtain rfl := eq_nil_of_line line rfl
      rfl
    | succ steps =>
      have ended : statements? (steps + 1) [] = some [] := rfl
      simpa using statements?_append line .nothing ended
  | @line es more cs nl ds line newLine _ ih =>
    obtain ⟨steps, rfl⟩ := Nat.exists_eq_add_one_of_ne_zero (Nat.ne_zero_of_lt enough)
    have := newLine.length_pos
    simp only [List.length_append] at enough
    have read := ih (show ds.length < steps by omega)
    rw [statements?_append line (.lines newLine ds) read, List.map_append]

/-! ## Tables -/

theorem add?_of_new {name : String} {es : Entries} (new : name ∉ es.map Prod.fst) (item : Item) :
    es.add? name item = some (es ++ [(name, item)]) := by
  have absent : es.lookup name = none := by
    rw [List.lookup_eq_none_iff]
    rintro e mem
    simp only [bne_iff_ne]
    rintro rfl
    exact new (List.mem_map_of_mem mem)
  rw [Entries.add?, absent]

/-- Statements with names that are all different add to the entries in their order. -/
theorem foldlM_keys (root current : Entries) {es : Entries}
    (distinct : ((current ++ es).map Prod.fst).Nodup) :
    (es.map Statement.ofEntry).foldlM Draft.step? ⟨root, .root, current⟩ =
      some ⟨root, .root, current ++ es⟩ := by
  induction es generalizing current with
  | nil => simp
  | cons e es ih =>
    have new : e.1 ∉ current.map Prod.fst := by
      rw [List.map_append, List.map_cons] at distinct
      exact fun mem => (List.nodup_append.1 distinct).2.2 e.1 mem e.1 List.mem_cons_self rfl
    have added : Draft.step? ⟨root, .root, current⟩ (.ofEntry e) =
        some ⟨root, .root, current ++ [e]⟩ := by
      simp [Statement.ofEntry, Draft.step?, Entries.set?, Entries.at?, add?_of_new new]
    rw [List.append_cons] at distinct ⊢
    rw [List.map_cons, List.foldlM_cons, added]
    exact ih _ distinct

/-- So the statements of names that are all different make a table of these names. -/
theorem ofStatements?_keys {es : Entries} (distinct : (es.map Prod.fst).Nodup) :
    ofStatements? (es.map .ofEntry) = some es := by
  rw [ofStatements?, Draft.empty, foldlM_keys [] [] distinct]
  rfl

/-- A document in a text, which may have a mark of byte order in front. -/
def Written (es : Entries) (source : String) : Prop :=
  ∃ cs, SpellsDocument es cs ∧ (source.toList = cs ∨ source.toList = '\ufeff' :: cs)

theorem ne_byteOrderMark_of_line {es : Entries} {cs rest next : List Char}
    (line : SpellsLine es cs) (follows : Follows rest next) :
    ∀ c ∈ (cs ++ rest).head?, c ≠ '\ufeff' := by
  cases line with
  | empty indent comment =>
    rw [List.append_assoc]
    exact head_append (indent.head (by decide) (by decide))
      (head_append (comment.head (by decide)) (follows.head (by decide) (by decide)))
  | entry indent named =>
    rw [List.append_assoc, List.append_assoc]
    refine head_append (indent.head (by decide) (by decide)) ?_
    obtain ⟨c, ds, rfl, other⟩ := exists_cons_of_key named
    rintro _ ⟨⟩ rfl
    exact other (by decide)

theorem ne_byteOrderMark {es : Entries} {cs : List Char} (spelled : SpellsDocument es cs) :
    ∀ c ∈ cs.head?, c ≠ '\ufeff' := by
  cases spelled with
  | last line => simpa using ne_byteOrderMark_of_line line .nothing
  | line line newLine => exact ne_byteOrderMark_of_line line (.lines newLine _)

/-- **A document is parsed to what was written**, in the order of its lines. -/
theorem parse?_of_written {es : Entries} {source : String} (written : Written es source)
    (distinct : (es.map Prod.fst).Nodup) : parse? source = some es := by
  obtain ⟨cs, spelled, plain⟩ := written
  have skipped : skipByteOrderMark source.toList = cs := by
    rcases plain with plain | marked
    · rw [plain]
      unfold skipByteOrderMark
      split
      · exact absurd rfl (ne_byteOrderMark spelled _ rfl)
      · rfl
    · rw [marked]
      rfl
  have read := statements?_of_document spelled (Nat.lt_succ_self _)
  simp only [parse?, skipped, read, Option.bind_some, ofStatements?_keys distinct]

end RowFilter.Toml
