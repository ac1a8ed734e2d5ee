import RowFilter.Proofs.Sql.Quotes
import RowFilter.Proofs.Text.Digits

/-!
# References in a text

A reader of a clause finds the references to bound values by their sign, outside
of quotes, and reads as many digits behind it as there are. It finds those that
were written, since each of them is followed by a break.

* `Sql.references`: what a reader finds;
* `Fragment.references_write`: the references of a row of safe fragments;
* `Sql.separated_append`: the fragments of a clause are kept apart;
* `Fragment.count_write`: where references are anonymous there is no other sign
  in all of the text.
-/

namespace RowFilter

namespace Sql

/-- The references in a text, from left to right, each with whether a cast follows. `inQuotes` says
whether the text begins between quotes. -/
def references (d : Dialect) (inQuotes : Bool) : List Char → List (List Char × Bool)
  | [] => []
  | ch :: rest =>
    if ch = '\'' then references d (!inQuotes) rest
    else if inQuotes = false ∧ ch = d.sign then
      let number := if d.isAnonymous then [] else Text.leadingDigits rest
      (ch :: number, cast.isPrefixOf (rest.drop number.length)) :: references d inQuotes rest
    else references d inQuotes rest

/-- Text that neither quotes nor refers is passed over. -/
theorem references_append (d : Dialect) (inQuotes : Bool) {text : List Char}
    (quote : '\'' ∉ text) (sign : inQuotes = false → d.sign ∉ text) (rest : List Char) :
    references d inQuotes (text ++ rest) = references d inQuotes rest := by
  induction text with
  | nil => rfl
  | cons ch text ih =>
    simp only [List.mem_cons, not_or] at quote sign
    have refers : ¬(inQuotes = false ∧ ch = d.sign) := fun h => (sign h.1).1 h.2.symm
    rw [List.cons_append, references, if_neg (Ne.symm quote.1), if_neg refers]
    exact ih quote.2 fun outside => (sign outside).2

theorem references_quoted (d : Dialect) {name : List Char} (quote : '\'' ∉ name)
    (rest : List Char) :
    references d false ('\'' :: (name ++ '\'' :: rest)) = references d false rest := by
  rw [references, if_pos rfl, Bool.not_false,
    references_append d true quote (fun h => absurd h (by decide)), references, if_pos rfl,
    Bool.not_true]

/-- A text begins with a break, if at all. -/
def Ends (text : List Char) : Prop := ∀ ch ∈ text.head?, ch = ' ' ∨ ch = ')'

theorem cast_eq : cast = ':' :: ':' :: 'j' :: 's' :: 'o' :: 'n' :: ['b'] := by decide +kernel

theorem isPrefixOf_of_ends {rest : List Char} (ends : Ends rest) :
    cast.isPrefixOf rest = false := by
  cases rest with
  | nil => rw [cast_eq]; rfl
  | cons ch rest =>
    rcases ends ch rfl with rfl | rfl <;> rw [cast_eq] <;> rfl

theorem head?_of_ends {rest : List Char} (ends : Ends rest) (asDocument : Bool) :
    ∀ ch ∈ ((if asDocument then cast else []) ++ rest).head?, ch.isDigit = false := by
  cases asDocument with
  | true =>
    rw [cast_eq]
    intro ch mem
    obtain rfl : ':' = ch := by simpa using mem
    decide
  | false =>
    intro ch mem
    rcases ends ch mem with rfl | rfl <;> decide

theorem isPrefixOf_cast {rest : List Char} (ends : Ends rest) (asDocument : Bool) :
    cast.isPrefixOf ((if asDocument then cast else []) ++ rest) = asDocument := by
  cases asDocument with
  | true => exact List.isPrefixOf_iff_prefix.2 (List.prefix_append cast rest)
  | false => exact isPrefixOf_of_ends ends

theorem references_cast (d : Dialect) (asDocument : Bool) (rest : List Char) :
    references d false ((if asDocument then cast else []) ++ rest) = references d false rest := by
  cases asDocument with
  | true =>
    have sign : d.sign ∉ cast := by cases d <;> decide +kernel
    exact references_append d false (by decide +kernel) (fun _ => sign) rest
  | false => rfl

theorem references_placeholder (d : Dialect) (position : Nat) (asDocument : Bool)
    {rest : List Char} (ends : Ends rest) :
    references d false (d.placeholder position ++ ((if asDocument then cast else []) ++ rest)) =
      (d.placeholder position, asDocument) :: references d false rest := by
  obtain ⟨tail, is_tail⟩ : ∃ tail, (if asDocument then cast else []) ++ rest = tail := ⟨_, rfl⟩
  have after : references d false tail = references d false rest :=
    is_tail ▸ references_cast d asDocument rest
  have ahead : cast.isPrefixOf tail = asDocument := is_tail ▸ isPrefixOf_cast ends asDocument
  have stop : ∀ ch ∈ tail.head?, ch.isDigit = false := is_tail ▸ head?_of_ends ends asDocument
  rw [is_tail]
  cases d with
  | questionMark =>
    have written : Dialect.questionMark.placeholder position = ['?'] := rfl
    rw [written, List.singleton_append, references, if_neg (by decide), if_pos ⟨rfl, rfl⟩]
    simp [Dialect.isAnonymous, ahead, after]
  | postgres =>
    obtain ⟨number, written, digits⟩ := Dialect.postgres.placeholder_eq position
    have read : Text.leadingDigits (number ++ tail) = number := (Text.span_append digits stop).1
    have passed : references .postgres false (number ++ tail) = references .postgres false tail :=
      references_append _ _ (fun mem => absurd (digits _ mem) (by decide))
        (fun _ mem => absurd (digits _ mem) (by decide)) tail
    rw [written, List.cons_append, references, if_neg (by decide), if_pos ⟨rfl, rfl⟩]
    simp [Dialect.isAnonymous, read, passed, ahead, after]

end Sql

/-! ## Rows of fragments -/

namespace Fragment

/-- What a row of fragments begins with keeps it apart from a number in front of it. -/
def Break : List Fragment → Prop
  | [] => True
  | plain text :: _ => ∃ ch ∈ text.head?, ch = ' ' ∨ ch = ')'
  | _ => False

/-- Behind every reference comes a break. -/
def Separated : List Fragment → Prop
  | [] => True
  | reference _ _ :: fragments => Break fragments ∧ Separated fragments
  | _ :: fragments => Separated fragments

theorem Break.ends {fragments : List Fragment} (h : Break fragments) (d : Dialect) :
    Sql.Ends (fragments.flatMap (write d)) := by
  intro ch mem
  match fragments with
  | [] => simp at mem
  | plain text :: _ =>
    obtain ⟨first, is_first, break_⟩ := h
    have : ch = first := by
      cases text with
      | nil => simp at is_first
      | cons other text => simp_all [write]
    exact this ▸ break_

/-- **A reader finds the references that were written.** -/
theorem references_write (d : Dialect) (fragments : List Fragment)
    (safe : ∀ f ∈ fragments, f.Safe d) (separated : Separated fragments) :
    Sql.references d false (fragments.flatMap (write d)) =
      (fragments.filterMap reference?).map fun r => (d.placeholder r.1, r.2) := by
  induction fragments with
  | nil => rfl
  | cons f fragments ih =>
    have own := safe f List.mem_cons_self
    have rest := ih fun f mem => safe f (List.mem_cons_of_mem _ mem)
    rw [List.flatMap_cons]
    cases f with
    | plain text =>
      have quote : '\'' ∉ text := fun mem => absurd (own.1 _ mem) (by decide)
      have sign : d.sign ∉ text := fun mem => by cases d <;> exact absurd (own.1 _ mem) (by decide)
      exact (Sql.references_append d false quote (fun _ => sign) _).trans (rest separated)
    | quoted name =>
      have passed := Sql.references_quoted d own.1 (fragments.flatMap (write d))
      simpa [write, List.filterMap_cons, reference?] using passed.trans (rest separated)
    | reference position asDocument =>
      have found := Sql.references_placeholder d position asDocument (separated.1.ends d)
      rw [rest separated.2] at found
      simpa [write, List.filterMap_cons, reference?] using found

/-- **Anonymous references are all the question marks there are**, those in names included. -/
theorem count_write (fragments : List Fragment) (safe : ∀ f ∈ fragments, f.Safe .questionMark) :
    (fragments.flatMap (write .questionMark)).count '?' =
      (fragments.filterMap reference?).length := by
  induction fragments with
  | nil => rfl
  | cons f fragments ih =>
    have own := safe f List.mem_cons_self
    have rest := ih fun f mem => safe f (List.mem_cons_of_mem _ mem)
    rw [List.flatMap_cons, List.count_append, rest]
    cases f with
    | plain text =>
      have none : text.count '?' = 0 :=
        List.count_eq_zero.2 fun mem => absurd (own.1 _ mem) (by decide)
      simp [write, List.filterMap_cons, reference?, none]
    | quoted name =>
      have none : name.toList.count '?' = 0 := List.count_eq_zero.2 (own.2 rfl)
      simp [write, List.filterMap_cons, reference?, none]
    | reference position asDocument =>
      have cast : Sql.cast.count '?' = 0 := by decide +kernel
      have written : Dialect.questionMark.placeholder position = ['?'] := rfl
      cases asDocument <;>
        simp [write, reference?, written, cast, Nat.add_comm]

end Fragment

/-- **The fragments of a clause are kept apart**: behind an operand comes a word or a bracket. -/
theorem Sql.separated_append (q : Sql) {rest : List Fragment} (ends : Fragment.Break rest)
    (separated : Fragment.Separated rest) : Fragment.Separated (q.fragments ++ rest) := by
  induction q generalizing rest with
  | column name => exact separated
  | documentField document name => exact separated
  | placeholder position asDocument => exact ⟨ends, separated⟩
  | infixed word l r hl hr =>
    have right : Fragment.Separated (r.fragments ++ .plain [')'] :: rest) :=
      hr ⟨')', rfl, .inr rfl⟩ separated
    have left : Fragment.Separated (l.fragments ++ .plain (' ' :: (word.toList ++ [' '])) ::
        (r.fragments ++ .plain [')'] :: rest)) := hl ⟨' ', rfl, .inl rfl⟩ right
    simpa [Fragment.Separated] using left
  | textSearch config l r hl hr =>
    have right : Fragment.Separated (r.fragments ++ .plain [')', ')'] :: rest) :=
      hr ⟨')', rfl, .inr rfl⟩ separated
    have query : searchQuery.head? = some ')' := by decide +kernel
    have left : Fragment.Separated (l.fragments ++ .plain searchQuery :: .quoted config ::
        .plain [',', ' '] :: (r.fragments ++ .plain [')', ')'] :: rest)) :=
      hl ⟨')', query, .inr rfl⟩ right
    simpa [Fragment.Separated] using left

theorem Sql.separated (q : Sql) : Fragment.Separated q.fragments := by
  have separated : Fragment.Separated (q.fragments ++ []) := q.separated_append trivial trivial
  rwa [List.append_nil] at separated

end RowFilter
