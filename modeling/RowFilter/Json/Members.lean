namespace RowFilter.Members

variable {α : Type}

/-- Names in strictly ascending order. -/
def Ascending (ms : List (String × α)) : Prop := ms.Pairwise fun a b => a.1 < b.1

/-- Puts a member in its place; it replaces an earlier one of the same name. -/
def insert (name : String) (value : α) : List (String × α) → List (String × α)
  | [] => [(name, value)]
  | (n, v) :: rest =>
    if name = n then (name, value) :: rest
    else if name < n then (name, value) :: (n, v) :: rest
    else (n, v) :: insert name value rest

/-- The members in order, of each name the last. -/
def ofList (ms : List (String × α)) : List (String × α) :=
  ms.foldl (fun acc m => insert m.1 m.2 acc) []

theorem lookup_insert (name n : String) (value : α) (ms : List (String × α)) :
    (insert name value ms).lookup n = if n = name then some value else ms.lookup n := by
  induction ms with
  | nil => grind [insert]
  | cons m rest ih => grind [insert]

theorem lookup_ofList (n : String) (ms : List (String × α)) :
    (ofList ms).lookup n = ms.reverse.lookup n := by
  suffices ∀ acc, (ms.foldl (fun acc m => insert m.1 m.2 acc) acc).lookup n =
      (ms.reverse.lookup n).or (acc.lookup n) from (this []).trans (Option.or_none ..)
  induction ms with
  | nil => exact fun _ => rfl
  | cons m rest ih =>
    intro acc
    rw [List.foldl_cons, ih, lookup_insert, List.reverse_cons, List.lookup_append, Option.or_assoc]
    congr 1
    split
    · next same => rw [same, List.lookup_cons_self, Option.some_or]
    · next differs => rw [List.lookup_cons, beq_false_of_ne differs]; rfl

theorem mem_of_mem_insert {name : String} {value : α} {m : String × α}
    {ms : List (String × α)} (h : m ∈ insert name value ms) : m = (name, value) ∨ m ∈ ms := by
  induction ms with
  | nil => grind [insert]
  | cons m rest ih => grind [insert]

theorem insert_ascending {name : String} {value : α} {ms : List (String × α)}
    (h : Ascending ms) : Ascending (insert name value ms) := by
  induction ms with
  | nil => exact List.pairwise_singleton ..
  | cons m rest ih =>
    obtain ⟨first, others⟩ := List.pairwise_cons.1 h
    unfold insert
    split
    · next same => exact List.pairwise_cons.2 ⟨fun x hx => same ▸ first x hx, others⟩
    · next differs =>
      split
      · next before =>
        refine List.pairwise_cons.2 ⟨fun x hx => ?_, h⟩
        rcases List.mem_cons.1 hx with rfl | hx
        · exact before
        · exact String.lt_trans before (first x hx)
      · next not_before =>
        refine List.pairwise_cons.2 ⟨fun x hx => ?_, ih others⟩
        rcases mem_of_mem_insert hx with rfl | hx
        · exact Std.lt_of_le_of_ne (String.not_lt.1 not_before) (Ne.symm differs)
        · exact first x hx

theorem mem_of_mem_ofList {m : String × α} {ms : List (String × α)} (h : m ∈ ofList ms) :
    m ∈ ms := by
  suffices ∀ acc, m ∈ ms.foldl (fun acc m => insert m.1 m.2 acc) acc → m ∈ acc ∨ m ∈ ms from
    (this [] h).resolve_left List.not_mem_nil
  clear h
  induction ms with
  | nil => exact fun _ h => .inl h
  | cons x rest ih =>
    intro acc h
    rcases ih _ h with h | h
    · rcases mem_of_mem_insert h with rfl | h
      · exact .inr (List.mem_cons_self ..)
      · exact .inl h
    · exact .inr (List.mem_cons_of_mem _ h)

theorem ofList_ascending (ms : List (String × α)) : Ascending (ofList ms) := by
  suffices ∀ acc, Ascending acc → Ascending (ms.foldl (fun acc m => insert m.1 m.2 acc) acc) from
    this [] List.Pairwise.nil
  induction ms with
  | nil => exact fun _ h => h
  | cons m rest ih => exact fun acc h => ih _ (insert_ascending h)

/-- A name past all others goes to the end. -/
theorem insert_of_last {name : String} {value : α} {ms : List (String × α)}
    (h : ∀ m ∈ ms, m.1 < name) : insert name value ms = ms ++ [(name, value)] := by
  induction ms with
  | nil => rfl
  | cons m rest ih =>
    have before := h m (List.mem_cons_self ..)
    have differs : name ≠ m.1 := fun same => String.lt_irrefl _ (same ▸ before)
    have not_before : ¬ name < m.1 := fun after => String.lt_irrefl _ (String.lt_trans before after)
    rw [insert, if_neg differs, if_neg not_before, ih fun x hx => h x (List.mem_cons_of_mem _ hx)]
    rfl

theorem ofList_of_ascending {ms : List (String × α)} (h : Ascending ms) : ofList ms = ms := by
  suffices ∀ acc, Ascending (acc ++ ms) →
      ms.foldl (fun acc m => insert m.1 m.2 acc) acc = acc ++ ms from this [] h
  clear h
  induction ms with
  | nil => exact fun acc _ => (List.append_nil acc).symm
  | cons m rest ih =>
    intro acc h
    have last : ∀ x ∈ acc, x.1 < m.1 := fun x hx =>
      (List.pairwise_append.1 h).2.2 x hx m (List.mem_cons_self ..)
    rw [List.foldl_cons, insert_of_last last, ih _ (by simpa using h), List.append_assoc]
    rfl

end RowFilter.Members
