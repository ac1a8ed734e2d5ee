import RowFilter.Proofs.Json.Reading

namespace RowFilter.Json

theorem Written.own {token : Token} {ts : List Token} {own rest : List Char}
    (spelled : Spells token own) (others : Written ts rest) :
    Written (token :: ts) (own ++ rest) := by
  have written : Written (token :: ts) ([] ++ own ++ rest) := .token nofun spelled others
  rwa [List.nil_append] at written

theorem Written.mark {token : Token} {ts : List Token} {c : Char} {rest : List Char}
    (stands : mark? c = some token) (others : Written ts rest) :
    Written (token :: ts) (c :: rest) :=
  .own (.mark stands) others

section
variable {ts : List Token} {rest : List Char}

theorem written_compactItems {xs : List Json} (others : Written ts rest)
    (parts : ∀ x ∈ xs, ∀ ts rest, Written ts rest → Written (x.spelling ++ ts) (x.compact ++ rest)) :
    Written (spellingItems xs ++ ts) (compactItems xs ++ rest) := by
  induction xs with
  | nil => exact .mark rfl others
  | cons x xs ih =>
    obtain ⟨first, later⟩ := List.forall_mem_cons.1 parts
    simp only [spellingItems, compactItems, List.cons_append, List.append_assoc]
    exact .mark rfl (first _ _ (ih later))

theorem written_compactMembers {ms : List (String × Json)} (others : Written ts rest)
    (parts : ∀ m ∈ ms, ∀ ts rest, Written ts rest →
      Written (m.2.spelling ++ ts) (m.2.compact ++ rest)) :
    Written (spellingMembers ms ++ ts) (compactMembers ms ++ rest) := by
  induction ms with
  | nil => exact .mark rfl others
  | cons m ms ih =>
    obtain ⟨first, later⟩ := List.forall_mem_cons.1 parts
    simp only [spellingMembers, compactMembers, List.cons_append, List.append_assoc]
    exact .mark rfl (.own (spells_quote m.1) (.mark rfl (first _ _ (ih later))))

theorem written_compact_append (j : Json) (ts : List Token) (rest : List Char)
    (others : Written ts rest) : Written (j.spelling ++ ts) (j.compact ++ rest) := by
  induction j using inductionOnParts generalizing ts rest with
  | null => exact .own .null others
  | bool b => exact .own (.bool b) others
  | num n => exact .own (.num n) others
  | str s => exact .own (spells_quote s) others
  | arr items ih =>
    cases items with
    | nil => exact .mark rfl (.mark rfl others)
    | cons x xs =>
      obtain ⟨first, later⟩ := List.forall_mem_cons.1 ih
      simp only [spelling, compact, List.cons_append, List.append_assoc]
      exact .mark rfl (first _ _ (written_compactItems others later))
  | obj members ih =>
    cases members with
    | nil => exact .mark rfl (.mark rfl others)
    | cons m ms =>
      obtain ⟨first, later⟩ := List.forall_mem_cons.1 ih
      simp only [spelling, compact, List.cons_append, List.append_assoc]
      exact .mark rfl (.own (spells_quote m.1)
        (.mark rfl (first _ _ (written_compactMembers others later))))

end

theorem written_compact (j : Json) : Written j.spelling j.compact := by
  have written := written_compact_append j [] [] (.blanks nofun)
  rwa [List.append_nil, List.append_nil] at written

/-! ## Over lines -/

/-- Blanks may always be put in front. -/
theorem Written.behind {front : List Char} (blank : ∀ c ∈ front, isBlank c = true)
    {ts : List Token} {cs : List Char} (written : Written ts cs) : Written ts (front ++ cs) := by
  cases written with
  | blanks rest => exact .blanks (List.forall_mem_append.2 ⟨blank, rest⟩)
  | token more spelled others =>
    rw [← List.append_assoc, ← List.append_assoc]
    exact .token (List.forall_mem_append.2 ⟨blank, more⟩) spelled others

theorem isBlank_of_mem_newLine {depth : Nat} {c : Char} (mem : c ∈ newLine depth) :
    isBlank c = true := by
  rcases List.mem_cons.1 mem with rfl | mem
  · rfl
  · rw [List.eq_of_mem_replicate mem]
    rfl

section
variable {ts : List Token} {rest : List Char}

theorem Written.onNewLine (depth : Nat) (written : Written ts rest) :
    Written ts (newLine depth ++ rest) :=
  written.behind fun _ => isBlank_of_mem_newLine

theorem written_prettyItems (depth : Nat) {xs : List Json} (others : Written ts rest)
    (parts : ∀ x ∈ xs, ∀ depth ts rest, Written ts rest →
      Written (x.spelling ++ ts) (x.pretty depth ++ rest)) :
    Written (spellingItems xs ++ ts) (prettyItems depth xs ++ rest) := by
  induction xs with
  | nil =>
    rw [prettyItems, List.append_assoc]
    exact (Written.mark rfl others).onNewLine depth
  | cons x xs ih =>
    obtain ⟨first, later⟩ := List.forall_mem_cons.1 parts
    simp only [spellingItems, prettyItems, List.cons_append, List.append_assoc]
    exact .mark rfl ((first _ _ _ (ih later)).onNewLine _)

theorem written_prettyMember (k : String) {v : Json} {depth : Nat} {ts : List Token}
    {rest : List Char} (written : Written (v.spelling ++ ts) (v.pretty depth ++ rest)) :
    Written (.str k :: .colon :: (v.spelling ++ ts))
      (newLine depth ++ (quote k ++ ':' :: ' ' :: (v.pretty depth ++ rest))) := by
  have value : Written (v.spelling ++ ts) ([' '] ++ (v.pretty depth ++ rest)) :=
    written.behind fun c mem => List.mem_singleton.1 mem ▸ rfl
  exact (Written.own (spells_quote k) (.mark rfl value)).onNewLine depth

theorem written_prettyMembers (depth : Nat) {ms : List (String × Json)} (others : Written ts rest)
    (parts : ∀ m ∈ ms, ∀ depth ts rest, Written ts rest →
      Written (m.2.spelling ++ ts) (m.2.pretty depth ++ rest)) :
    Written (spellingMembers ms ++ ts) (prettyMembers depth ms ++ rest) := by
  induction ms with
  | nil =>
    rw [prettyMembers, List.append_assoc]
    exact (Written.mark rfl others).onNewLine depth
  | cons m ms ih =>
    obtain ⟨first, later⟩ := List.forall_mem_cons.1 parts
    simp only [spellingMembers, prettyMembers, List.cons_append, List.append_assoc]
    exact .mark rfl (written_prettyMember m.1 (first _ _ _ (ih later)))

theorem written_pretty_append (j : Json) (depth : Nat) (ts : List Token) (rest : List Char)
    (others : Written ts rest) : Written (j.spelling ++ ts) (j.pretty depth ++ rest) := by
  induction j using inductionOnParts generalizing depth ts rest with
  | null => exact .own .null others
  | bool b => exact .own (.bool b) others
  | num n => exact .own (.num n) others
  | str s => exact .own (spells_quote s) others
  | arr items ih =>
    cases items with
    | nil => exact .mark rfl (.mark rfl others)
    | cons x xs =>
      obtain ⟨first, later⟩ := List.forall_mem_cons.1 ih
      simp only [spelling, pretty, List.cons_append, List.append_assoc]
      exact .mark rfl ((first _ _ _ (written_prettyItems depth others later)).onNewLine _)
  | obj members ih =>
    cases members with
    | nil => exact .mark rfl (.mark rfl others)
    | cons m ms =>
      obtain ⟨first, later⟩ := List.forall_mem_cons.1 ih
      simp only [spelling, pretty, List.cons_append, List.append_assoc]
      exact .mark rfl (written_prettyMember m.1
        (first _ _ _ (written_prettyMembers depth others later)))

end

theorem written_pretty (j : Json) : Written j.spelling (j.pretty 0) := by
  have written := written_pretty_append j 0 [] [] (.blanks nofun)
  rwa [List.append_nil, List.append_nil] at written

/-! ## Whole texts -/

/-- A text of legible tokens is read as its tokens are. -/
theorem readAll_of_written {α : Type} {read : Reader α} {ts : List Token} {a : α} {s : String}
    (reads : Reads read ts a) (legible : Legible ts) (written : Written ts s.toList) :
    readAll read s = .ok a := by
  have whole := reads []
  rw [List.append_nil] at whole
  rw [readAll, tokens_of_written written legible, whole]

/-- **A text that spells a value without fractions is parsed as that value.** -/
theorem parse_of_written {j : Json} {s : String} (written : Written j.spelling s.toList)
    (whole : j.holdsFloat = false) (ordered : j.Ordered) (shallow : j.depth ≤ depthLimit) :
    parse s = .ok j :=
  readAll_of_written (reads_value ordered shallow) (legible_spelling whole) written

end RowFilter.Json
