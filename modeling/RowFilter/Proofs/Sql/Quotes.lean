import RowFilter.Proofs.Sql.Fragments

namespace RowFilter

/-- The reference sign of a dialect. -/
def Dialect.sign : Dialect → Char
  | .questionMark => '?'
  | .postgres => '$'

/-- A reference is a sign and digits. -/
theorem Dialect.placeholder_eq (d : Dialect) (position : Nat) :
    ∃ digits, d.placeholder position = d.sign :: digits ∧ ∀ ch ∈ digits, ch.isDigit = true := by
  cases d with
  | questionMark => exact ⟨[], rfl, nofun⟩
  | postgres =>
    exact ⟨Text.natural (position + 1), rfl, fun _ mem => Text.isDigit_of_mem_natural mem⟩

namespace Sql

/-- The characters that a clause itself is made of. -/
def isPlain (ch : Char) : Bool :=
  ch.isAlphanum || ['_', ' ', '(', ')', ',', '=', '@', '-', '>', ':'].contains ch

/-- A dash is always the beginning of an arrow, so that no two of them make a comment. -/
def Arrows (text : List Char) : Prop := ∀ i : Nat, text[i]? = some '-' → text[i + 1]? = some '>'

theorem Arrows.of_not_mem {text : List Char} (h : '-' ∉ text) : Arrows text :=
  fun _ dash => absurd (List.mem_of_getElem? dash) h

theorem Arrows.append {x y : List Char} (left : Arrows x) (right : Arrows y) :
    Arrows (x ++ y) := by
  intro i dash
  by_cases inside : i < x.length
  · rw [List.getElem?_append_left inside] at dash
    have arrow := left i dash
    have next := (List.getElem?_eq_some_iff.1 arrow).1
    rwa [List.getElem?_append_left next]
  · rw [List.getElem?_append_right (by omega)] at dash ⊢
    have shift : i + 1 - x.length = i - x.length + 1 := by omega
    rw [shift]
    exact right _ dash

/-- What may stand outside of quotes. -/
structure Outside (d : Dialect) (piece : List Char) : Prop where
  allowed : ∀ ch ∈ piece, isPlain ch = true ∨ ch = d.sign
  arrows : Arrows piece

theorem Outside.not_quote {d : Dialect} {piece : List Char} (h : Outside d piece) :
    '\'' ∉ piece := by
  intro quote
  rcases h.allowed _ quote with plain | sign
  · exact absurd plain (by decide)
  · cases d <;> exact absurd sign (by decide)

theorem Outside.nil (d : Dialect) : Outside d [] :=
  ⟨fun _ mem => absurd mem List.not_mem_nil, .of_not_mem List.not_mem_nil⟩

theorem Outside.append {d : Dialect} {x y : List Char} (left : Outside d x)
    (right : Outside d y) : Outside d (x ++ y) := by
  refine ⟨fun ch mem => ?_, left.arrows.append right.arrows⟩
  rcases List.mem_append.1 mem with mem | mem
  · exact left.allowed ch mem
  · exact right.allowed ch mem

/-- The pieces of a text between its quotes. -/
def pieces (text : List Char) : List (List Char) := text.splitOn '\''

/-- A text holds these names between its quotes, from left to right, and outside of them nothing
that quotes or begins a comment. -/
structure Quotes (d : Dialect) (names : List String) (text : List Char) : Prop where
  odd : (pieces text).length = 2 * names.length + 1
  inside : ∀ i : Nat, (pieces text)[2 * i + 1]? = (names[i]?).map String.toList
  outside : ∀ (i : Nat) (piece : List Char), (pieces text)[2 * i]? = some piece → Outside d piece

section
variable {d : Dialect} {names : List String} {text : List Char}

theorem pieces_append {front : List Char} (h : '\'' ∉ front) (text : List Char) :
    pieces (front ++ text) = (pieces text).modifyHead (front ++ ·) := by
  induction front with
  | nil => cases split : pieces text <;> simp [split]
  | cons ch front ih =>
    have other : (ch == '\'') = false := by
      simp only [List.mem_cons, not_or] at h
      exact beq_eq_false_iff_ne.2 (Ne.symm h.1)
    rw [pieces, List.cons_append, List.splitOn_cons_eq_if_modifyHead, other, if_neg (by simp),
      ← pieces, ih fun quote => h (List.mem_cons_of_mem ch quote), List.modifyHead_modifyHead]
    rfl

theorem Quotes.nil (d : Dialect) : Quotes d [] [] := by
  have one : pieces [] = [[]] := List.splitOn_nil '\''
  constructor
  · rw [one]
    rfl
  · intro i
    rw [one]
    simp
  · intro i piece is_piece
    rw [one] at is_piece
    cases i with
    | zero =>
      obtain rfl : [] = piece := by simpa using is_piece
      exact .nil d
    | succ i => simp at is_piece

theorem Quotes.plain {front : List Char} (own : Outside d front) (h : Quotes d names text) :
    Quotes d names (front ++ text) := by
  obtain ⟨first, others, split⟩ := List.exists_cons_of_ne_nil
    (show pieces text ≠ [] from List.splitOn_ne_nil _ _)
  have lengthened : pieces (front ++ text) = (front ++ first) :: others := by
    rw [pieces_append own.not_quote, split]
    rfl
  constructor
  · have odd := h.odd
    rw [split] at odd
    rw [lengthened]
    exact odd
  · intro i
    have inside := h.inside i
    rw [split] at inside
    rw [lengthened]
    exact inside
  · intro i piece is_piece
    rw [lengthened] at is_piece
    cases i with
    | zero =>
      obtain rfl : front ++ first = piece := by simpa using is_piece
      exact own.append (h.outside 0 first (by rw [split]; rfl))
    | succ i =>
      refine h.outside (i + 1) piece ?_
      rw [split]
      exact is_piece

theorem Quotes.name {name : String} (quote : '\'' ∉ name.toList) (h : Quotes d names text) :
    Quotes d (name :: names) ('\'' :: (name.toList ++ '\'' :: text)) := by
  have split : pieces ('\'' :: (name.toList ++ '\'' :: text)) =
      [] :: name.toList :: pieces text := by
    rw [pieces, List.splitOn_cons_eq_if_modifyHead, if_pos (by simp),
      List.splitOn_append_cons_self_of_not_mem quote]
    rfl
  constructor
  · rw [split, List.length_cons, List.length_cons, h.odd, List.length_cons]
    omega
  · intro i
    rw [split]
    cases i with
    | zero => rfl
    | succ i => exact h.inside i
  · intro i piece is_piece
    rw [split] at is_piece
    cases i with
    | zero =>
      obtain rfl : [] = piece := by simpa using is_piece
      exact .nil d
    | succ i => exact h.outside i piece is_piece

end

end Sql

/-! ## Rows of fragments -/

namespace Fragment

/-- A fragment keeps to its part: what is plain neither quotes nor comments nor refers to a value,
and a name does not end its quotes. -/
def Safe (d : Dialect) : Fragment → Prop
  | plain text => (∀ ch ∈ text, Sql.isPlain ch = true) ∧ Sql.Arrows text
  | quoted name => '\'' ∉ name.toList ∧ (d.isAnonymous = true → '?' ∉ name.toList)
  | reference _ _ => True

theorem mem_placeholder {d : Dialect} {position : Nat} {ch : Char}
    (h : ch ∈ d.placeholder position) : ch = d.sign ∨ ch.isDigit = true := by
  obtain ⟨digits, written, own⟩ := d.placeholder_eq position
  rw [written] at h
  exact (List.mem_cons.1 h).imp_right (own ch)

theorem outside_placeholder (d : Dialect) (position : Nat) :
    Sql.Outside d (d.placeholder position) := by
  constructor
  · intro ch mem
    rcases mem_placeholder mem with sign | digit
    · exact .inr sign
    · exact .inl (by simp [Sql.isPlain, Char.isAlphanum, digit])
  · refine .of_not_mem fun dash => ?_
    rcases mem_placeholder dash with sign | digit
    · cases d <;> exact absurd sign (by decide)
    · exact absurd digit (by decide)

theorem outside_cast (d : Dialect) : Sql.Outside d Sql.cast := by
  have plain : Sql.cast.all Sql.isPlain = true := by decide +kernel
  have no_dash : '-' ∉ Sql.cast := by decide +kernel
  exact ⟨fun ch mem => .inl (List.all_eq_true.1 plain ch mem), .of_not_mem no_dash⟩

/-- **Between the quotes of safe fragments stand their names.** -/
theorem quotes_of_safe (d : Dialect) (fragments : List Fragment)
    (safe : ∀ f ∈ fragments, f.Safe d) :
    Sql.Quotes d (fragments.filterMap name?) (fragments.flatMap (write d)) := by
  induction fragments with
  | nil => exact .nil d
  | cons f fragments ih =>
    have rest := ih fun f mem => safe f (List.mem_cons_of_mem _ mem)
    have own := safe f List.mem_cons_self
    cases f with
    | plain text => exact rest.plain ⟨fun ch mem => .inl (own.1 ch mem), own.2⟩
    | quoted name => simpa [write, List.filterMap_cons, name?] using rest.name own.1
    | reference position asDocument =>
      have front := outside_placeholder d position
      cases asDocument with
      | false => simpa [write, List.filterMap_cons, name?] using rest.plain front
      | true =>
        simpa [write, List.filterMap_cons, name?] using rest.plain (front.append (outside_cast d))

end Fragment

end RowFilter
