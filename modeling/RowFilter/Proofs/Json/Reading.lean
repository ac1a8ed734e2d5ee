import RowFilter.Json.Tagged
import RowFilter.Proofs.Json.Parts

namespace RowFilter.Json

/-- A reader takes the tokens for `a`, whatever stands behind them. -/
def Reads {α : Type} (read : Reader α) (ts : List Token) (a : α) : Prop :=
  ∀ rest, read (ts ++ rest) = .ok (a, rest)

theorem Reads.map {α β : Type} {read : Reader α} {ts : List Token} {a : α} (reads : Reads read ts a)
    (make : α → β) : Reads (fun ts => (read ts).map fun r => (make r.1, r.2)) ts (make a) := by
  intro rest
  simp only [reads rest]
  rfl

section
variable {α : Type} {item : Reader α}

/-- What stands behind a comma is an item and not the end of the list. -/
theorem moreItems_comma (steps : Nat) (x : Json) (rest : List Token) :
    moreItems item (steps + 1) (.comma :: (x.spelling ++ rest)) = do
      let (a, ts) ← item (x.spelling ++ rest)
      let (as, ts) ← moreItems item steps ts
      return (a :: as, ts) := by
  obtain ⟨t, ts, written, other, -⟩ := spelling_eq_cons x
  rw [written, List.cons_append, moreItems]
  intro ts' same
  exact other (List.cons.inj same).1

theorem items_cons (x : Json) (rest : List Token) :
    items item (x.spelling ++ rest) = do
      let (a, ts) ← item (x.spelling ++ rest)
      let (as, ts) ← moreItems item (x.spelling ++ rest).length ts
      return (a :: as, ts) := by
  obtain ⟨t, ts, written, other, -⟩ := spelling_eq_cons x
  rw [written, List.cons_append, items]
  intro ts' same
  exact other (List.cons.inj same).1

section
variable {make : α → Json} {as : List α} (parts : ∀ a ∈ as, Reads item (make a).spelling a)
include parts

theorem moreItems_spellingItems (steps : Nat) (enough : as.length ≤ steps) (rest : List Token) :
    moreItems item steps (spellingItems (as.map make) ++ rest) = .ok (as, rest) := by
  induction as generalizing steps with
  | nil => cases steps <;> rfl
  | cons a as ih =>
    obtain ⟨first, others⟩ := List.forall_mem_cons.1 parts
    obtain ⟨steps, rfl⟩ : ∃ n, steps = n + 1 := ⟨steps - 1, by simp at enough; omega⟩
    simp only [List.map_cons, spellingItems, List.cons_append, List.append_assoc, moreItems_comma]
    rw [first]
    simp only [bind, Except.bind, ih others steps (Nat.le_of_succ_le_succ enough)]
    rfl

theorem items_spelling (rest : List Token) :
    ∃ ts, (Json.arr (as.map make)).spelling ++ rest = .openList :: ts ∧
      items item ts = .ok (as, rest) := by
  cases as with
  | nil => exact ⟨.closeList :: rest, rfl, rfl⟩
  | cons a as =>
    obtain ⟨first, others⟩ := List.forall_mem_cons.1 parts
    refine ⟨(make a).spelling ++ (spellingItems (as.map make) ++ rest), ?_, ?_⟩
    · simp only [List.map_cons, spelling, List.cons_append, List.append_assoc]
    · have enough : as.length ≤
          ((make a).spelling ++ (spellingItems (as.map make) ++ rest)).length := by
        have := length_spellingItems (as.map make)
        simp only [List.length_append, List.length_map] at this ⊢
        omega
      rw [items_cons, first]
      simp only [bind, Except.bind, moreItems_spellingItems others _ enough]
      rfl

theorem reads_list (wanted : String) :
    Reads (list item wanted) (Json.arr (as.map make)).spelling as := by
  intro rest
  obtain ⟨ts, written, read⟩ := items_spelling parts rest
  rw [written]
  exact read

end

end

section
variable {item : Reader Json}

theorem member_spelling (k : String) {v : Json} (reads : Reads item v.spelling v)
    (rest : List Token) :
    member item (.str k :: .colon :: (v.spelling ++ rest)) = .ok ((k, v), rest) := by
  simp only [member, name, mark, bind, Except.bind, if_true, reads rest]
  rfl

variable {ms : List (String × Json)} (parts : ∀ m ∈ ms, Reads item m.2.spelling m.2)
include parts

theorem moreMembers_spellingMembers (steps : Nat) (enough : ms.length ≤ steps)
    (rest : List Token) :
    moreMembers item steps (spellingMembers ms ++ rest) = .ok (ms, rest) := by
  induction ms generalizing steps with
  | nil => cases steps <;> rfl
  | cons m ms ih =>
    obtain ⟨first, others⟩ := List.forall_mem_cons.1 parts
    obtain ⟨steps, rfl⟩ : ∃ n, steps = n + 1 := ⟨steps - 1, by simp at enough; omega⟩
    simp only [spellingMembers, List.cons_append, List.append_assoc, moreMembers,
      member_spelling m.1 first, bind, Except.bind, ih others steps (Nat.le_of_succ_le_succ enough)]
    rfl

theorem members_spelling (rest : List Token) :
    ∃ ts, (Json.obj ms).spelling ++ rest = .openObject :: ts ∧
      members item ts = .ok (ms, rest) := by
  cases ms with
  | nil => exact ⟨.closeObject :: rest, rfl, rfl⟩
  | cons m ms =>
    obtain ⟨first, others⟩ := List.forall_mem_cons.1 parts
    refine ⟨.str m.1 :: .colon :: (m.2.spelling ++ (spellingMembers ms ++ rest)), ?_, ?_⟩
    · simp only [spelling, List.cons_append, List.append_assoc]
    · have enough : ms.length ≤ (Token.str m.1 :: .colon ::
          (m.2.spelling ++ (spellingMembers ms ++ rest))).length := by
        have := length_spellingMembers ms
        simp only [List.length_cons, List.length_append] at this ⊢
        omega
      simp only [members, member_spelling m.1 first, bind, Except.bind,
        moreMembers_spellingMembers others _ enough]
      rfl

end

/-- **A value is read back from its tokens**, if its brackets nest no deeper than may be. -/
theorem reads_value {j : Json} (ordered : j.Ordered) {depth : Nat} (shallow : j.depth ≤ depth) :
    Reads (value depth) j.spelling j := by
  induction j using inductionOnParts generalizing depth with
  | null | bool | num | str =>
    intro rest
    simp only [spelling, List.cons_append, List.nil_append, value]
  | arr items ih =>
    obtain ⟨depth, rfl, parts⟩ := depth_arr_le_iff.1 shallow
    have all : ∀ x ∈ items, Reads (value depth) (id x).spelling x := fun x hx =>
      ih x hx (orderedItems_iff.1 ordered x hx) (parts x hx)
    intro rest
    obtain ⟨ts, written, read⟩ := items_spelling all rest
    rw [List.map_id] at written
    simp only [written, value, read, Except.map]
  | obj members ih =>
    obtain ⟨depth, rfl, parts⟩ := depth_obj_le_iff.1 shallow
    obtain ⟨ascending, orderedMembers⟩ := ordered
    have all : ∀ m ∈ members, Reads (value depth) m.2.spelling m.2 := fun m hm =>
      ih m hm (orderedMembers_iff.1 orderedMembers m hm) (parts m hm)
    intro rest
    obtain ⟨ts, written, read⟩ := members_spelling all rest
    simp only [written, value, read, Except.map, object, Members.ofList_of_ascending ascending]

/-! ## Tagged values -/

section
variable {α β : Type} {as : Alternatives α} {tag : String} {kind : Alternative α} {a : α}

/-- A tag with its content is read as the content is. -/
theorem reads_tagged (found : as.find tag = .ok kind) {content : Json}
    (reads : Reads kind.content content.spelling a) :
    Reads (tagged as true) (Json.obj [(tag, content)]).spelling a := by
  intro rest
  have read := reads (.closeObject :: rest)
  simp only [spelling, spellingMembers, List.cons_append, List.append_assoc, List.nil_append,
    tagged, name, mark, found, bind, Except.bind, if_true, read]
  rfl

theorem reads_bare (found : as.find tag = .ok kind) (bare : kind.bare = .ok a) (mayNest : Bool) :
    Reads (tagged as mayNest) (Json.str tag).spelling a := by
  intro rest
  simp only [spelling, List.cons_append, List.nil_append, tagged, found, bare, bind, Except.bind]
  rfl

theorem reads_plain (a : α) : Reads (Alternative.plain a).content Json.null.spelling a :=
  fun _ => rfl

theorem reads_holding {read : Reader β} {ts : List Token} {b : β} (reads : Reads read ts b)
    (make : β → α) : Reads (Alternative.holding read make).content ts (make b) :=
  reads.map make

theorem two_spelling {item : Reader β} {l r : Json} {x y : β} (left : Reads item l.spelling x)
    (right : Reads item r.spelling y) (wanted : String) (rest : List Token) :
    Alternative.two wanted item (l.spelling ++ .comma :: (r.spelling ++ .closeList :: rest)) =
      .ok ((x, y), rest) := by
  obtain ⟨t, ts, written, other, -⟩ := spelling_eq_cons l
  obtain ⟨u, us, written', other', -⟩ := spelling_eq_cons r
  have first := left (.comma :: (r.spelling ++ .closeList :: rest))
  have second := right (.closeList :: rest)
  rw [written, written', List.cons_append, List.cons_append] at first
  rw [written', List.cons_append] at second
  rw [written, written', List.cons_append, List.cons_append, Alternative.two]
  · simp only [first, bind, Except.bind]
    split
    · next same => cases same
    · next same =>
      exact absurd (List.cons.inj (List.cons.inj same).2).1 other'
    · next same =>
      obtain rfl := (List.cons.inj same).2
      simp only [second, mark, if_true]
      rfl
    · next same => exact absurd rfl (same _)
  · intro ts' same
    exact other (List.cons.inj same).1

/-- A list of two is read as its items are. -/
theorem reads_pairing {item : Reader β} {l r : Json} {x y : β} (left : Reads item l.spelling x)
    (right : Reads item r.spelling y) (wanted : String) (make : β → β → α) :
    Reads (Alternative.pairing wanted (some item) make).content (Json.arr [l, r]).spelling
      (make x y) := by
  intro rest
  have items : (Json.arr [l, r]).spelling ++ rest =
      .openList :: (l.spelling ++ .comma :: (r.spelling ++ .closeList :: rest)) := by
    simp only [spelling, spellingItems, List.cons_append, List.append_assoc, List.nil_append]
  simp only [items, Alternative.pairing, Alternative.pair, two_spelling left right wanted rest,
    Except.map]

end

end RowFilter.Json
