import RowFilter.Proofs.Json.Spelling

namespace RowFilter.Json

/-- Induction over a value and the values inside it. -/
@[elab_as_elim]
theorem inductionOnParts {motive : Json → Prop} (null : motive .null) (bool : ∀ b, motive (.bool b))
    (num : ∀ n, motive (.num n)) (str : ∀ s, motive (.str s))
    (arr : ∀ items, (∀ x ∈ items, motive x) → motive (.arr items))
    (obj : ∀ members, (∀ m ∈ members, motive m.2) → motive (.obj members)) (j : Json) :
    motive j :=
  match j with
  | .null => null
  | .bool b => bool b
  | .num n => num n
  | .str s => str s
  | .arr items => arr items fun x _ => inductionOnParts null bool num str arr obj x
  | .obj members => obj members fun m _ => inductionOnParts null bool num str arr obj m.2
termination_by sizeOf j
decreasing_by
  · have := List.sizeOf_lt_of_mem ‹x ∈ items›
    simp only [Json.arr.sizeOf_spec]
    omega
  · have := List.sizeOf_lt_of_mem ‹m ∈ members›
    obtain ⟨name, value⟩ := m
    simp only [Json.obj.sizeOf_spec, Prod.mk.sizeOf_spec] at *
    omega

/-! ## Tokens of a value -/

mutual

/-- The tokens of a value. -/
def spelling : Json → List Token
  | .null => [.null]
  | .bool b => [.bool b]
  | .num n => [.num n]
  | .str s => [.str s]
  | .arr [] => [.openList, .closeList]
  | .arr (x :: xs) => .openList :: (x.spelling ++ spellingItems xs)
  | .obj [] => [.openObject, .closeObject]
  | .obj ((k, v) :: ms) => .openObject :: .str k :: .colon :: (v.spelling ++ spellingMembers ms)

/-- The tokens of the items after the first, and the closing bracket. -/
def spellingItems : List Json → List Token
  | [] => [.closeList]
  | x :: xs => .comma :: (x.spelling ++ spellingItems xs)

/-- The tokens of the members after the first, and the closing brace. -/
def spellingMembers : List (String × Json) → List Token
  | [] => [.closeObject]
  | (k, v) :: ms => .comma :: .str k :: .colon :: (v.spelling ++ spellingMembers ms)

end

mutual

def holdsFloat : Json → Bool
  | .num (.float _ _) => true
  | .arr items => holdsFloatItems items
  | .obj members => holdsFloatMembers members
  | _ => false

def holdsFloatItems : List Json → Bool
  | [] => false
  | x :: xs => x.holdsFloat || holdsFloatItems xs

def holdsFloatMembers : List (String × Json) → Bool
  | [] => false
  | (_, x) :: xs => x.holdsFloat || holdsFloatMembers xs

end

theorem holdsFloatItems_eq_false_iff {items : List Json} :
    holdsFloatItems items = false ↔ ∀ x ∈ items, x.holdsFloat = false := by
  induction items with
  | nil => simp [holdsFloatItems]
  | cons x xs ih => simp [holdsFloatItems, ih]

theorem holdsFloatMembers_eq_false_iff {members : List (String × Json)} :
    holdsFloatMembers members = false ↔ ∀ m ∈ members, m.2.holdsFloat = false := by
  induction members with
  | nil => simp [holdsFloatMembers]
  | cons m ms ih => simp [holdsFloatMembers, ih]

theorem depthItems_le_iff {items : List Json} {n : Nat} :
    depthItems items ≤ n ↔ ∀ x ∈ items, x.depth ≤ n := by
  induction items with
  | nil => simp [depthItems]
  | cons x xs ih => rw [depthItems, Nat.max_le, ih, List.forall_mem_cons]

theorem depthMembers_le_iff {members : List (String × Json)} {n : Nat} :
    depthMembers members ≤ n ↔ ∀ m ∈ members, m.2.depth ≤ n := by
  induction members with
  | nil => simp [depthMembers]
  | cons m ms ih => rw [depthMembers, Nat.max_le, ih, List.forall_mem_cons]

theorem depth_arr_le_iff {items : List Json} {n : Nat} :
    (Json.arr items).depth ≤ n ↔ ∃ k, n = k + 1 ∧ ∀ x ∈ items, x.depth ≤ k := by
  rw [depth]
  cases n with
  | zero => simp
  | succ n => simp [depthItems_le_iff]

theorem depth_obj_le_iff {members : List (String × Json)} {n : Nat} :
    (Json.obj members).depth ≤ n ↔ ∃ k, n = k + 1 ∧ ∀ m ∈ members, m.2.depth ≤ k := by
  rw [depth]
  cases n with
  | zero => simp
  | succ n => simp [depthMembers_le_iff]

/-- A value begins with a token that closes nothing. -/
theorem spelling_eq_cons (j : Json) :
    ∃ t ts, j.spelling = t :: ts ∧ t ≠ .closeList ∧ t ≠ .closeObject := by
  match j with
  | .null | .bool _ | .num _ | .str _ | .arr [] | .arr (_ :: _) | .obj [] | .obj (_ :: _) =>
    exact ⟨_, _, rfl, nofun, nofun⟩

theorem length_spellingItems (xs : List Json) : xs.length < (spellingItems xs).length := by
  induction xs with
  | nil => simp [spellingItems]
  | cons x xs ih =>
    simp only [spellingItems, List.length_cons, List.length_append]
    omega

theorem length_spellingMembers (ms : List (String × Json)) :
    ms.length < (spellingMembers ms).length := by
  induction ms with
  | nil => simp [spellingMembers]
  | cons m ms ih =>
    simp only [spellingMembers, List.length_cons, List.length_append]
    omega

/-! ## Values without fractions are legible -/

section
variable {rest : List Token} (legible : Legible rest)
include legible

theorem legible_spellingItems {xs : List Json} (parts : ∀ x ∈ xs, ∀ rest, Legible rest →
    (∀ t ∈ rest.head?, t.isNumber = false) → Legible (x.spelling ++ rest)) :
    Legible (spellingItems xs ++ rest) := by
  induction xs with
  | nil => exact legible_cons rfl legible
  | cons x xs ih =>
    obtain ⟨first, others⟩ := List.forall_mem_cons.1 parts
    simp only [spellingItems, List.cons_append, List.append_assoc]
    apply legible_cons rfl
    apply first _ (ih others)
    cases xs <;> simp [spellingItems, Token.isNumber]

theorem legible_spellingMembers {ms : List (String × Json)}
    (parts : ∀ m ∈ ms, ∀ rest, Legible rest → (∀ t ∈ rest.head?, t.isNumber = false) →
      Legible (m.2.spelling ++ rest)) :
    Legible (spellingMembers ms ++ rest) := by
  induction ms with
  | nil => exact legible_cons rfl legible
  | cons m ms ih =>
    obtain ⟨first, others⟩ := List.forall_mem_cons.1 parts
    simp only [spellingMembers, List.cons_append, List.append_assoc]
    apply legible_cons rfl
    apply legible_cons rfl
    apply legible_cons rfl
    apply first _ (ih others)
    cases ms <;> simp [spellingMembers, Token.isNumber]

end

theorem legible_spelling_append {j : Json} (whole : j.holdsFloat = false) (rest : List Token)
    (legible : Legible rest) (other : ∀ t ∈ rest.head?, t.isNumber = false) :
    Legible (j.spelling ++ rest) := by
  induction j using inductionOnParts generalizing rest with
  | null | bool | str => exact legible_cons rfl legible
  | num n =>
    cases n with
    | int n fits => exact ⟨rfl, fun _ => other, legible⟩
    | float x finite => cases whole
  | arr items ih =>
    have parts := holdsFloatItems_eq_false_iff.1 whole
    have body := legible_spellingItems legible fun x hx => ih x hx (parts x hx)
    cases items with
    | nil => exact legible_cons rfl body
    | cons x xs =>
      simp only [spellingItems, List.cons_append] at body
      exact legible_cons rfl body.2.2
  | obj members ih =>
    have parts := holdsFloatMembers_eq_false_iff.1 whole
    have body := legible_spellingMembers legible fun m hm => ih m hm (parts m hm)
    cases members with
    | nil => exact legible_cons rfl body
    | cons m ms =>
      simp only [spellingMembers, List.cons_append] at body
      exact legible_cons rfl body.2.2

theorem legible_spelling {j : Json} (whole : j.holdsFloat = false) : Legible j.spelling := by
  have legible := legible_spelling_append whole [] legible_nil (by simp)
  rwa [List.append_nil] at legible

end RowFilter.Json
