import RowFilter.Proofs.Sql.References

/-! A rewriter goes through a text, finds the numbered references outside of quotes and puts
something else in place of each. What it makes of a clause is the clause written with other
references, since it finds those that were written and passes over the rest. -/

namespace RowFilter

namespace Sql

/-- A text in which every numbered reference, digits and all, has given way to what `replace` makes of
its digits. What stands between quotes is left alone; `inQuotes` says whether the text begins
there. -/
def mapReferences (replace : List Char → List Char) (inQuotes : Bool) : List Char → List Char
  | [] => []
  | ch :: rest =>
    if ch = '\'' then ch :: mapReferences replace (!inQuotes) rest
    else if inQuotes = false ∧ ch = '$' then
      replace (Text.leadingDigits rest) ++ mapReferences replace inQuotes (Text.afterDigits rest)
    else ch :: mapReferences replace inQuotes rest
termination_by text => text.length
decreasing_by
  · exact Nat.lt_succ_self _
  · exact Nat.lt_succ_of_le (Text.length_afterDigits_le rest)
  · exact Nat.lt_succ_self _

variable (replace : List Char → List Char)

theorem mapReferences_append (inQuotes : Bool) {text : List Char} (quote : '\'' ∉ text)
    (sign : inQuotes = false → '$' ∉ text) (rest : List Char) :
    mapReferences replace inQuotes (text ++ rest) =
      text ++ mapReferences replace inQuotes rest := by
  induction text with
  | nil => rfl
  | cons ch text ih =>
    simp only [List.mem_cons, not_or] at quote sign
    have refers : ¬(inQuotes = false ∧ ch = '$') := fun h => (sign h.1).1 h.2.symm
    rw [List.cons_append, mapReferences, if_neg (Ne.symm quote.1), if_neg refers,
      ih quote.2 fun outside => (sign outside).2, List.cons_append]

theorem mapReferences_quoted {name : List Char} (quote : '\'' ∉ name) (rest : List Char) :
    mapReferences replace false ('\'' :: (name ++ '\'' :: rest)) =
      '\'' :: (name ++ '\'' :: mapReferences replace false rest) := by
  rw [mapReferences, if_pos rfl, Bool.not_false,
    mapReferences_append replace true quote (fun h => absurd h (by decide)), mapReferences,
    if_pos rfl, Bool.not_true]

theorem mapReferences_reference {number rest : List Char}
    (digits : ∀ ch ∈ number, ch.isDigit = true) (stop : ∀ ch ∈ rest.head?, ch.isDigit = false) :
    mapReferences replace false ('$' :: (number ++ rest)) =
      replace number ++ mapReferences replace false rest := by
  obtain ⟨front, behind⟩ := Text.span_append digits stop
  rw [mapReferences, if_neg (by decide), if_pos ⟨rfl, rfl⟩, Text.leadingDigits, Text.afterDigits,
    front, behind]

theorem mapReferences_cast (asDocument : Bool) (rest : List Char) :
    mapReferences replace false ((if asDocument then cast else []) ++ rest) =
      (if asDocument then cast else []) ++ mapReferences replace false rest := by
  cases asDocument with
  | true =>
    have quote : '\'' ∉ cast := by decide +kernel
    have sign : '$' ∉ cast := by decide +kernel
    exact mapReferences_append replace false quote (fun _ => sign) rest
  | false => rfl

end Sql

namespace Fragment

/-- A fragment in which `refer` writes the references. -/
def writeWith (refer : Nat → List Char) : Fragment → List Char
  | plain text => text
  | quoted name => '\'' :: (name.toList ++ ['\''])
  | reference position asDocument => refer position ++ if asDocument then Sql.cast else []

theorem write_eq (d : Dialect) : write d = writeWith d.placeholder := by
  funext f
  cases f <;> rfl

/-- **Rewriting the references of a clause is writing it with other references.** -/
theorem mapReferences_write (replace : List Char → List Char) (fragments : List Fragment)
    (safe : ∀ f ∈ fragments, f.Safe .postgres) (separated : Separated fragments) :
    Sql.mapReferences replace false (fragments.flatMap (write .postgres)) =
      fragments.flatMap (writeWith fun position => replace (Text.natural (position + 1))) := by
  induction fragments with
  | nil => simp [Sql.mapReferences]
  | cons f fragments ih =>
    have own := safe f List.mem_cons_self
    have rest := ih fun f mem => safe f (List.mem_cons_of_mem _ mem)
    rw [List.flatMap_cons, List.flatMap_cons]
    cases f with
    | plain text =>
      have quote : '\'' ∉ text := fun mem => absurd (own.1 _ mem) (by decide)
      have sign : '$' ∉ text := fun mem => absurd (own.1 _ mem) (by decide)
      rw [← rest separated]
      exact Sql.mapReferences_append replace false quote (fun _ => sign) _
    | quoted name =>
      have kept := Sql.mapReferences_quoted replace own.1 (fragments.flatMap (write .postgres))
      rw [rest separated] at kept
      simpa [write, writeWith] using kept
    | reference position asDocument =>
      have digits : ∀ ch ∈ Text.natural (position + 1), ch.isDigit = true :=
        fun _ mem => Text.isDigit_of_mem_natural mem
      have stop := Sql.head?_of_ends (separated.1.ends .postgres) asDocument
      have rewritten := Sql.mapReferences_reference replace digits stop
      rw [Sql.mapReferences_cast, rest separated.2] at rewritten
      simpa [write, writeWith, Dialect.placeholder] using rewritten

end Fragment

theorem Sql.mapReferences_text (replace : List Char → List Char) {q : Sql}
    (safe : ∀ f ∈ q.fragments, f.Safe .postgres) :
    mapReferences replace false (q.text .postgres).toList =
      q.fragments.flatMap
        (Fragment.writeWith fun position => replace (Text.natural (position + 1))) := by
  rw [toList_text, Fragment.mapReferences_write replace q.fragments safe q.separated]

/-- A clause is anonymous if every numbered reference in it gives way to a question mark. -/
theorem Sql.text_questionMark {q : Sql} (safe : ∀ f ∈ q.fragments, f.Safe .postgres) :
    q.text .questionMark =
      String.ofList (mapReferences (fun _ => ['?']) false (q.text .postgres).toList) := by
  have question : Dialect.questionMark.placeholder = fun _ => ['?'] := rfl
  rw [mapReferences_text _ safe, ← question, ← Fragment.write_eq, ← toList_text,
    String.ofList_toList]

/-! ## Raising numbers -/

/-- The reference to the value `n` positions further on. -/
def Fragment.shift (n : Nat) : Fragment → Fragment
  | reference position asDocument => reference (position + n) asDocument
  | f => f

/-- The clause that refers to values `n` positions further on. -/
def Sql.shift (n : Nat) : Sql → Sql
  | placeholder position asDocument => placeholder (position + n) asDocument
  | infixed word l r => infixed word (l.shift n) (r.shift n)
  | textSearch config l r => textSearch config (l.shift n) (r.shift n)
  | q => q

/-- A text in which the numbers of all references outside of quotes are raised by `n`. Where
references are anonymous they have none. -/
def Dialect.raise (d : Dialect) (n : Nat) (text : List Char) : List Char :=
  match d with
  | .questionMark => text
  | .postgres =>
    Sql.mapReferences (fun number => '$' :: Text.natural (Text.naturalOf number + n)) false text

theorem Sql.fragments_shift (n : Nat) (q : Sql) :
    (q.shift n).fragments = q.fragments.map (Fragment.shift n) := by
  induction q with
  | infixed word l r hl hr => simp [shift, hl, hr, Fragment.shift]
  | textSearch config l r hl hr => simp [shift, hl, hr, Fragment.shift]
  | _ => rfl

/-- **A clause that refers to later values has the same text with the numbers raised.** -/
theorem Sql.toList_text_shift {d : Dialect} {q : Sql} (safe : ∀ f ∈ q.fragments, f.Safe d)
    (n : Nat) : ((q.shift n).text d).toList = d.raise n (q.text d).toList := by
  rw [toList_text, fragments_shift, List.flatMap_map]
  cases d with
  | questionMark =>
    rw [Dialect.raise, toList_text]
    congr 1
    funext f
    cases f <;> rfl
  | postgres =>
    rw [Dialect.raise, mapReferences_text _ safe]
    congr 1
    funext f
    cases f with
    | reference position asDocument =>
      rw [Fragment.shift, Fragment.write_eq, Fragment.writeWith, Fragment.writeWith,
        Dialect.placeholder, Text.naturalOf_natural, Nat.add_right_comm]
    | _ => rfl

example : Sql.mapReferences (fun _ => ['?']) false "(Fields->'a$1' = $12::jsonb)".toList =
    "(Fields->'a$1' = ?::jsonb)".toList := by decide +kernel

end RowFilter
