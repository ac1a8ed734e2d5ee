import Mathlib.Data.List.Basic
import RowFilter.Expr.Basic
import RowFilter.Proofs.Sql.References
import RowFilter.Schema.Basic

/-! A reader takes a clause off the front of a text. It goes by brackets, by the words between
operands and by what an operand begins with, and never looks ahead further than the opening of a
text search. -/

namespace RowFilter.Sql

/-- What an operator writes around its operands. -/
structure Frame where
  opening : List Char
  between : List Char
  closing : List Char

def frame (s : Schema) : BinaryOp → Frame
  | .and => ⟨['('], " and ".toList, [')']⟩
  | .or => ⟨['('], " or ".toList, [')']⟩
  | .equals => ⟨['('], " = ".toList, [')']⟩
  | .textMatch =>
    ⟨searchText ++ quoted s.textSearchConfig [',', ' '],
      searchQuery ++ quoted s.textSearchConfig [',', ' '], [')', ')']⟩

/-- The word at the front of a text. -/
def word (text : List Char) : List Char := text.takeWhile Schema.isIdentifierChar

/-- What follows the word at the front of a text. -/
def afterWord (text : List Char) : List Char := text.dropWhile Schema.isIdentifierChar

/-- What follows a reference, given what follows its sign. -/
def afterReference (text : List Char) : List Char :=
  let rest := Text.afterDigits text
  if cast.isPrefixOf rest then rest.drop cast.length else rest

/-- Reads the rest of a field that begins with a word: an arrow makes it an attribute of the
document, whose name stands between quotes. -/
def readField (word : List Char) : List Char → Expr Unit × List Char
  | '-' :: '>' :: '\'' :: rest =>
    (.field (String.ofList (rest.takeWhile (· != '\''))), (rest.dropWhile (· != '\'')).tail)
  | rest => (.field (String.ofList word), rest)

/-- Reads what stands without brackets: a reference or a field. -/
def readOperand (d : Dialect) (text : List Char) : Expr Unit × List Char :=
  if text.head? = some d.sign then (.literal (), afterReference text.tail)
  else readField (word text) (afterWord text)

/-- What follows an opening, if the text begins with one. -/
def opened? (s : Schema) (text : List Char) : Option (List Char) :=
  match (frame s .textMatch).opening.isPrefixOf? text with
  | some rest => some rest
  | none => ['('].isPrefixOf? text

/-- The operator that comes after its left operand. -/
def operator? : List Char → Option BinaryOp
  | ' ' :: 'a' :: _ => some .and
  | ' ' :: 'o' :: _ => some .or
  | ' ' :: '=' :: _ => some .equals
  | ')' :: _ => some .textMatch
  | _ => none

/-- Reads a clause with fewer than `depth` operators inside each other. -/
def read (s : Schema) (d : Dialect) : Nat → List Char → Option (Expr Unit × List Char)
  | 0, _ => none
  | depth + 1, text =>
    match opened? s text with
    | none => some (readOperand d text)
    | some text => do
      let (l, text) ← read s d depth text
      let op ← operator? text
      let text ← (frame s op).between.isPrefixOf? text
      let (r, text) ← read s d depth text
      let text ← (frame s op).closing.isPrefixOf? text
      some (.binary op l r, text)

/-! ## Operators -/

theorem isPrefixOf?_append (front rest : List Char) :
    front.isPrefixOf? (front ++ rest) = some rest :=
  List.isPrefixOf?_eq_some_iff_append_eq.2 rfl

theorem searchText_eq : searchText = '(' :: ("to_tsvector".toList ++ ['(']) := by decide +kernel

theorem searchQuery_eq : searchQuery = ')' :: searchQuery.tail := by decide +kernel

theorem head?_opening (s : Schema) (op : BinaryOp) (rest : List Char) :
    ((frame s op).opening ++ rest).head? = some '(' := by
  cases op with
  | textMatch => rw [frame, searchText_eq]; rfl
  | _ => rfl

theorem operator?_between (s : Schema) (op : BinaryOp) (rest : List Char) :
    operator? ((frame s op).between ++ rest) = some op := by
  cases op with
  | textMatch => rw [frame, searchQuery_eq]; rfl
  | _ => simp [frame, operator?]

theorem ends_between (s : Schema) (op : BinaryOp) (rest : List Char) :
    Ends ((frame s op).between ++ rest) := by
  intro ch mem
  cases op with
  | textMatch =>
    rw [frame, searchQuery_eq] at mem
    exact .inr (Option.some.inj mem).symm
  | _ => exact .inl (by simpa [frame, eq_comm] using mem)

theorem ends_closing (s : Schema) (op : BinaryOp) (rest : List Char) :
    Ends ((frame s op).closing ++ rest) := by
  intro ch mem
  cases op <;> exact .inr (Option.some.inj mem).symm

theorem word_append {name rest : List Char}
    (own : ∀ ch ∈ name, Schema.isIdentifierChar ch = true)
    (stop : ∀ ch ∈ rest.head?, Schema.isIdentifierChar ch = false) :
    word (name ++ rest) = name ∧ afterWord (name ++ rest) = rest :=
  Text.span_append own stop

/-- A text begins with a word and a bracket. -/
def Calls (text : List Char) : Prop := word text ≠ [] ∧ (afterWord text).head? = some '('

theorem calls_of_opening {s : Schema} {text rest : List Char}
    (h : (frame s .textMatch).opening.isPrefixOf? ('(' :: text) = some rest) : Calls text := by
  have split := List.isPrefixOf?_eq_some_iff_append_eq.1 h
  simp only [frame, searchText_eq, List.cons_append, List.append_assoc, List.cons.injEq,
    true_and, List.nil_append] at split
  have bracket : ∀ ch ∈ ('(' :: (quoted s.textSearchConfig [',', ' '] ++ rest)).head?,
      Schema.isIdentifierChar ch = false := by
    intro ch mem
    obtain rfl : '(' = ch := Option.some.inj mem
    decide
  have letters : "to_tsvector".toList.all Schema.isIdentifierChar = true := by decide +kernel
  obtain ⟨name, after⟩ := word_append (List.all_eq_true.1 letters) bracket
  rw [← split, Calls, name, after]
  exact ⟨by decide +kernel, rfl⟩

/-- A left operand that does not begin with a call begins behind the opening of its operator. -/
theorem opened?_opening (s : Schema) (op : BinaryOp) {text : List Char} (h : ¬Calls text) :
    opened? s ((frame s op).opening ++ text) = some text := by
  have bracket : opened? s ('(' :: text) = some text := by
    rw [opened?]
    cases found : (frame s .textMatch).opening.isPrefixOf? ('(' :: text) with
    | some rest => exact absurd (calls_of_opening found) h
    | none => exact isPrefixOf?_append ['('] text
  cases op with
  | textMatch => rw [opened?, isPrefixOf?_append]
  | _ => exact bracket

theorem opened?_of_head (s : Schema) {text : List Char} (h : text.head? ≠ some '(') :
    opened? s text = none := by
  have no_opening {front rest : List Char} (found : ('(' :: front).isPrefixOf? text = some rest) :
      False := by
    have split := List.isPrefixOf?_eq_some_iff_append_eq.1 found
    exact h (split ▸ rfl)
  rw [opened?]
  split
  · next found =>
    rw [frame, searchText_eq] at found
    exact (no_opening found).elim
  · exact Option.eq_none_iff_forall_ne_some.2 fun rest found => no_opening found

/-! ## Operands without brackets -/

theorem read_operand {s : Schema} {d : Dialect} {text : List Char} (h : text.head? ≠ some '(')
    (depth : Nat) : read s d (depth + 1) text = some (readOperand d text) := by
  rw [read, opened?_of_head s h]

theorem sign_not_identifierChar (d : Dialect) : Schema.isIdentifierChar d.sign = false := by
  cases d <;> decide

theorem not_identifierChar_of_ends {rest : List Char} (ends : Ends rest) :
    ∀ ch ∈ rest.head?, Schema.isIdentifierChar ch = false := by
  intro ch mem
  rcases ends ch mem with rfl | rfl <;> decide

theorem not_calls_of_head {text : List Char} {ch : Char} (head : text.head? = some ch)
    (other : Schema.isIdentifierChar ch = false) : ¬Calls text := by
  intro calls
  cases text with
  | nil => cases head
  | cons first rest =>
    obtain rfl : first = ch := Option.some.inj head
    exact calls.1 (List.takeWhile_cons_of_neg (by simp [other]))

section
variable {name : String} (h : Schema.isIdentifier name = true)
include h

theorem head?_identifier (rest : List Char) :
    ∃ ch, (name.toList ++ rest).head? = some ch ∧ Schema.isIdentifierChar ch = true := by
  obtain ⟨nonempty, own⟩ := Schema.isIdentifier_iff.1 h
  cases chars : name.toList with
  | nil => exact absurd (String.toList_eq_nil_iff.1 chars) nonempty
  | cons ch chars' => exact ⟨ch, rfl, own ch (chars ▸ List.mem_cons_self)⟩

theorem not_calls_identifier {rest : List Char}
    (stop : ∀ ch ∈ rest.head?, Schema.isIdentifierChar ch = false)
    (bracket : rest.head? ≠ some '(') : ¬Calls (name.toList ++ rest) :=
  fun calls => bracket ((word_append (Schema.isIdentifier_iff.1 h).2 stop).2 ▸ calls.2)

theorem read_identifier (s : Schema) (d : Dialect) {rest : List Char}
    (stop : ∀ ch ∈ rest.head?, Schema.isIdentifierChar ch = false) (depth : Nat) :
    read s d (depth + 1) (name.toList ++ rest) = some (readField name.toList rest) := by
  obtain ⟨ch, head, own⟩ := head?_identifier h rest
  have bracket : ch ≠ '(' := by
    rintro rfl
    exact absurd own (by decide)
  have sign : ch ≠ d.sign := by
    rintro rfl
    exact absurd own (by simp [sign_not_identifierChar])
  obtain ⟨front, after⟩ := word_append (Schema.isIdentifier_iff.1 h).2 stop
  rw [read_operand (by simpa [head] using bracket), readOperand, head,
    if_neg (by simpa using sign), front, after]

end

section
variable (s : Schema) (d : Dialect) (depth : Nat) {rest : List Char}

theorem not_calls_column {name : String} (h : Schema.isIdentifier name = true)
    (ends : Ends rest) : ¬Calls ((column name).before d rest) := by
  refine not_calls_identifier h (not_identifierChar_of_ends ends) fun bracket => ?_
  rcases ends '(' bracket with wrong | wrong <;> exact absurd wrong (by decide)

theorem read_column {name : String} (h : Schema.isIdentifier name = true) (ends : Ends rest) :
    read s d (depth + 1) ((column name).before d rest) = some (.field name, rest) := by
  rw [before_column, read_identifier h s d (not_identifierChar_of_ends ends)]
  cases rest with
  | nil => simp [readField]
  | cons ch rest => rcases ends ch rfl with rfl | rfl <;> simp [readField]

theorem not_calls_documentField {document name : String}
    (h : Schema.isIdentifier document = true) :
    ¬Calls ((documentField document name).before d rest) :=
  not_calls_identifier h (by simp; decide) (by simp)

theorem read_documentField {document name : String} (h : Schema.isIdentifier document = true)
    (quote : '\'' ∉ name.toList) :
    read s d (depth + 1) ((documentField document name).before d rest) =
      some (.field name, rest) := by
  have others : ∀ ch ∈ name.toList, (ch != '\'') = true := by
    intro ch mem
    exact bne_iff_ne.2 fun same => quote (same ▸ mem)
  have closing : ∀ ch ∈ ('\'' :: rest).head?, (ch != '\'') = false := by simp
  obtain ⟨inside, after⟩ := Text.span_append others closing
  rw [before_documentField, read_identifier h s d (by simp; decide)]
  simp only [readField, quoted, List.cons_append, inside, after, List.tail_cons,
    String.ofList_toList]

theorem not_calls_placeholder (position : Nat) (asDocument : Bool) :
    ¬Calls ((placeholder position asDocument).before d rest) := by
  obtain ⟨digits, written, -⟩ := d.placeholder_eq position
  rw [before_placeholder, written]
  exact not_calls_of_head rfl (sign_not_identifierChar d)

theorem read_placeholder (position : Nat) (asDocument : Bool) (ends : Ends rest) :
    read s d (depth + 1) ((placeholder position asDocument).before d rest) =
      some (.literal (), rest) := by
  obtain ⟨digits, written, own⟩ := d.placeholder_eq position
  have bracket : d.sign ≠ '(' := by cases d <;> decide
  have cast_in_front : (if asDocument then cast ++ rest else rest) =
      (if asDocument then cast else []) ++ rest := by cases asDocument <;> rfl
  have behind := (Text.span_append own (head?_of_ends ends asDocument)).2
  rw [before_placeholder, cast_in_front, written, List.cons_append,
    read_operand (by simpa using bracket), readOperand, List.head?_cons, if_pos rfl, List.tail_cons,
    afterReference, Text.afterDigits, behind, isPrefixOf_cast ends]
  cases asDocument <;> simp

end

end RowFilter.Sql
