namespace RowFilter

/-- Names in strictly ascending order. -/
structure Columns where
  names : List String
  ascending : names.Pairwise (· < ·)
  deriving DecidableEq

namespace Columns

def place (name : String) : List String → List String
  | [] => [name]
  | n :: rest =>
    if name = n then n :: rest
    else if name < n then name :: n :: rest
    else n :: place name rest

theorem mem_place {name m : String} {ns : List String} :
    m ∈ place name ns ↔ m = name ∨ m ∈ ns := by
  induction ns with
  | nil => simp [place]
  | cons n rest ih => grind [place]

theorem place_ascending {name : String} {ns : List String} (h : ns.Pairwise (· < ·)) :
    (place name ns).Pairwise (· < ·) := by
  induction ns with
  | nil => simp [place]
  | cons n rest ih =>
    obtain ⟨first, others⟩ := List.pairwise_cons.1 h
    unfold place
    split
    · exact h
    · split
      · next lt =>
        refine List.pairwise_cons.2 ⟨fun m hm => ?_, h⟩
        rcases List.mem_cons.1 hm with rfl | hm
        · exact lt
        · exact String.lt_trans lt (first m hm)
      · next ne not_lt =>
        refine List.pairwise_cons.2 ⟨fun m hm => ?_, ih others⟩
        rcases mem_place.1 hm with rfl | hm
        · exact Std.lt_of_le_of_ne (String.not_lt.1 not_lt) (Ne.symm ne)
        · exact first m hm

def empty : Columns := ⟨[], .nil⟩

def insert (name : String) (c : Columns) : Columns := ⟨place name c.names, place_ascending c.ascending⟩

def ofList (ns : List String) : Columns := ns.foldr insert empty

instance : Membership String Columns := ⟨fun c name => name ∈ c.names⟩

instance (name : String) (c : Columns) : Decidable (name ∈ c) :=
  inferInstanceAs (Decidable (name ∈ c.names))

theorem mem_def {name : String} {c : Columns} : name ∈ c ↔ name ∈ c.names := Iff.rfl

theorem mem_insert {name m : String} {c : Columns} : m ∈ c.insert name ↔ m = name ∨ m ∈ c :=
  mem_place

theorem mem_ofList {m : String} {ns : List String} : m ∈ ofList ns ↔ m ∈ ns := by
  induction ns with
  | nil => exact ⟨nofun, nofun⟩
  | cons n ns ih => rw [ofList, List.foldr_cons, mem_insert, List.mem_cons]; exact or_congr_right ih

end Columns

end RowFilter
