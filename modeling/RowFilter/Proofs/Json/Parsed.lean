import RowFilter.Proofs.Json.Parts
import RowFilter.Json.Tagged

/-!
# What a reader found

A reader that finds something says by that how the tokens began. What is parsed is
in order: every object in it has its members by ascending names.

* `Json.tagged_eq_ok`, `Json.two_eq_ok`: tagged values and lists of two;
* `Json.Finds`: all that a reader can find has a property;
* `Json.ordered_of_parse`: the values that are parsed.
-/

namespace RowFilter.Json

section
variable {α β : Type}

theorem bind_eq_ok_iff {x : Except Problem α} {f : α → Except Problem β} {b : β} :
    (x >>= f) = .ok b ↔ ∃ a, x = .ok a ∧ f a = .ok b := by
  cases x <;> simp [bind, Except.bind]

theorem map_eq_ok_iff {x : Except Problem α} {f : α → β} {b : β} :
    x.map f = .ok b ↔ ∃ a, x = .ok a ∧ f a = b := by
  cases x <;> simp [Except.map]

theorem name_eq_ok {ts rest : List Token} {s : String} (h : name ts = .ok (s, rest)) :
    ts = .str s :: rest := by
  unfold name at h
  split at h
  · cases h; rfl
  · cases h
  · cases h

theorem mark_eq_ok {token : Token} {ts rest : List Token} {u : Unit}
    (h : mark token ts = .ok (u, rest)) : ts = token :: rest := by
  unfold mark at h
  split at h
  · split at h
    · next same => cases h; rw [same]
    · cases h
  · cases h

theorem mem_of_find {as : Alternatives α} {tag : String} {kind : Alternative α}
    (found : as.find tag = .ok kind) : (tag, kind) ∈ as := by
  unfold Alternatives.find at found
  split at found
  · next listed =>
    cases found
    obtain ⟨before, after, rfl, -⟩ := List.lookup_eq_some_iff.1 listed
    exact List.mem_append_right _ (List.mem_cons_self ..)
  · cases found

/-- A tagged value that was found is a bare tag, or an object of a tag and its content. -/
theorem tagged_eq_ok {as : Alternatives α} {mayNest : Bool} {ts rest : List Token} {a : α}
    (h : tagged as mayNest ts = .ok (a, rest)) :
    (∃ tag kind, ts = .str tag :: rest ∧ as.find tag = .ok kind ∧ kind.bare = .ok a) ∨
      mayNest = true ∧ ∃ tag kind content, ts = .openObject :: .str tag :: .colon :: content ∧
        as.find tag = .ok kind ∧ kind.content content = .ok (a, .closeObject :: rest) := by
  unfold tagged at h
  split at h
  · split at h
    · next mayNest =>
      obtain ⟨⟨tag, ts⟩, tagged, h⟩ := bind_eq_ok_iff.1 h
      obtain ⟨kind, found, h⟩ := bind_eq_ok_iff.1 h
      obtain ⟨⟨_, content⟩, colon, h⟩ := bind_eq_ok_iff.1 h
      obtain ⟨⟨b, after⟩, read, h⟩ := bind_eq_ok_iff.1 h
      obtain ⟨⟨_, others⟩, close, h⟩ := bind_eq_ok_iff.1 h
      cases h
      rw [mark_eq_ok close] at read
      rw [name_eq_ok tagged, mark_eq_ok colon]
      exact .inr ⟨mayNest, tag, kind, content, rfl, found, read⟩
    · cases h
  · next tag ts =>
    obtain ⟨kind, found, h⟩ := bind_eq_ok_iff.1 h
    obtain ⟨b, bare, h⟩ := bind_eq_ok_iff.1 h
    cases h
    exact .inl ⟨tag, kind, rfl, found, bare⟩
  · cases h
  · cases h

theorem string_eq_ok {wanted : String} {ts rest : List Token} {s : String}
    (h : string wanted ts = .ok (s, rest)) : ts = .str s :: rest := by
  unfold string at h
  split at h
  · cases h; rfl
  · cases h

theorem nothing_eq_ok {wanted : String} {ts rest : List Token} {u : Unit}
    (h : nothing wanted ts = .ok (u, rest)) : ts = .null :: rest := by
  unfold nothing at h
  split at h
  · cases h; rfl
  · cases h

theorem pair_eq_ok {wanted : String} {operand : Option (Reader β)} {ts rest : List Token} {x y : β}
    (h : Alternative.pair wanted operand ts = .ok ((x, y), rest)) :
    ∃ item ts', operand = some item ∧ ts = .openList :: ts' ∧
      Alternative.two wanted item ts' = .ok ((x, y), rest) := by
  unfold Alternative.pair at h
  split at h
  · split at h
    · exact ⟨_, _, rfl, rfl, h⟩
    · cases h
  · cases h

/-- Two items that were found stand in a list of two. -/
theorem two_eq_ok {wanted : String} {item : Reader β} {ts rest : List Token} {x y : β}
    (h : Alternative.two wanted item ts = .ok ((x, y), rest)) :
    (∀ ts', ts ≠ .closeList :: ts') ∧ ∃ others, item ts = .ok (x, .comma :: others) ∧
      (∀ ts', others ≠ .closeList :: ts') ∧ item others = .ok (y, .closeList :: rest) := by
  unfold Alternative.two at h
  split at h
  · cases h
  · next more =>
    obtain ⟨⟨a, after⟩, first, h⟩ := bind_eq_ok_iff.1 h
    dsimp only at h
    split at h
    · cases h
    · cases h
    · next others more' =>
      obtain ⟨⟨b, behind⟩, second, h⟩ := bind_eq_ok_iff.1 h
      obtain ⟨⟨_, last⟩, close, h⟩ := bind_eq_ok_iff.1 h
      cases h
      obtain rfl : behind = .closeList :: last := mark_eq_ok close
      exact ⟨more, others, first, more', second⟩
    · cases h

theorem value_member {depth : Nat} {tag : String} {content rest : List Token} {v : Json}
    (read : value depth content = .ok (v, .closeObject :: rest)) :
    value (depth + 1) (.openObject :: .str tag :: .colon :: content) =
      .ok (.obj [(tag, v)], rest) := by
  simp only [value, members, member, name, mark, bind, Except.bind, if_true, read, pure,
    Except.pure, moreMembers, Except.map]
  rfl

theorem value_pair {depth : Nat} {ts others rest : List Token} {v w : Json}
    (more : ∀ ts', ts ≠ .closeList :: ts')
    (first : value depth ts = .ok (v, .comma :: others))
    (more' : ∀ ts', others ≠ .closeList :: ts')
    (second : value depth others = .ok (w, .closeList :: rest)) :
    value (depth + 1) (.openList :: ts) = .ok (.arr [v, w], rest) := by
  obtain ⟨steps, enough⟩ : ∃ steps, ts.length = steps + 1 := by
    cases ts with
    | nil => simp [value, Problem.at] at first
    | cons t ts => exact ⟨ts.length, rfl⟩
  have last : moreItems (value depth) steps (.closeList :: rest) = .ok ([], rest) := by
    cases steps <;> rfl
  have tail : moreItems (value depth) (steps + 1) (.comma :: others) = .ok ([w], rest) := by
    rw [moreItems]
    · simp only [second, bind, Except.bind, last]
      rfl
    · exact more'
  have read : items (value depth) ts = .ok ([v, w], rest) := by
    rw [items]
    · simp only [first, bind, Except.bind, enough, tail]
      rfl
    · exact more
  simp only [value, read, Except.map]

end

/-! ## Order -/

/-- All that a reader can find has a property. -/
def Finds {α : Type} (read : Reader α) (P : α → Prop) : Prop :=
  ∀ ts a rest, read ts = .ok (a, rest) → P a

section
variable {α : Type} {item : Reader α} {P : α → Prop} (finds : Finds item P)
include finds

theorem finds_moreItems (steps : Nat) : Finds (moreItems item steps) fun as => ∀ a ∈ as, P a := by
  intro ts as rest h
  induction steps, ts using moreItems.induct generalizing as rest with
  | case1 steps ts =>
    rw [moreItems] at h
    cases h
    exact nofun
  | case2 steps ts =>
    rw [moreItems] at h
    cases h
  | case3 steps ts more ih =>
    rw [moreItems] at h
    · obtain ⟨⟨a, after⟩, first, h⟩ := bind_eq_ok_iff.1 h
      obtain ⟨⟨others, behind⟩, found, h⟩ := bind_eq_ok_iff.1 h
      cases h
      exact List.forall_mem_cons.2 ⟨finds _ _ _ first, ih _ _ _ found⟩
    · exact more
  | case4 =>
    rw [moreItems] at h
    · cases h
    all_goals assumption

theorem finds_items : Finds (items item) fun as => ∀ a ∈ as, P a := by
  intro ts as rest h
  unfold items at h
  split at h
  · cases h
    exact nofun
  · obtain ⟨⟨a, after⟩, first, h⟩ := bind_eq_ok_iff.1 h
    obtain ⟨⟨others, behind⟩, more, h⟩ := bind_eq_ok_iff.1 h
    cases h
    exact List.forall_mem_cons.2 ⟨finds _ _ _ first, finds_moreItems finds _ _ _ _ more⟩

theorem finds_member : Finds (member item) fun m => P m.2 := by
  intro ts m rest h
  obtain ⟨⟨k, after⟩, -, h⟩ := bind_eq_ok_iff.1 h
  obtain ⟨⟨_, behind⟩, -, h⟩ := bind_eq_ok_iff.1 h
  obtain ⟨⟨a, last⟩, found, h⟩ := bind_eq_ok_iff.1 h
  cases h
  exact finds _ _ _ found

theorem finds_moreMembers (steps : Nat) :
    Finds (moreMembers item steps) fun ms => ∀ m ∈ ms, P m.2 := by
  intro ts ms rest h
  induction steps, ts using moreMembers.induct generalizing ms rest with
  | case1 steps ts =>
    rw [moreMembers] at h
    cases h
    exact nofun
  | case2 steps ts ih =>
    rw [moreMembers] at h
    obtain ⟨⟨m, after⟩, first, h⟩ := bind_eq_ok_iff.1 h
    obtain ⟨⟨others, behind⟩, found, h⟩ := bind_eq_ok_iff.1 h
    cases h
    exact List.forall_mem_cons.2 ⟨finds_member finds _ _ _ first, ih _ _ _ found⟩
  | case3 =>
    rw [moreMembers] at h
    · cases h
    all_goals assumption

theorem finds_members : Finds (members item) fun ms => ∀ m ∈ ms, P m.2 := by
  intro ts ms rest h
  unfold members at h
  split at h
  · cases h
    exact nofun
  · obtain ⟨⟨m, after⟩, first, h⟩ := bind_eq_ok_iff.1 h
    obtain ⟨⟨others, behind⟩, more, h⟩ := bind_eq_ok_iff.1 h
    cases h
    exact List.forall_mem_cons.2
      ⟨finds_member finds _ _ _ first, finds_moreMembers finds _ _ _ _ more⟩

end

/-- A value is built from values that were found with one bracket less. -/
theorem finds_value (depth : Nat) : Finds (value depth) Ordered := by
  induction depth with
  | zero =>
    intro ts j rest h
    unfold value at h
    split at h <;> cases h <;> trivial
  | succ depth ih =>
    intro ts j rest h
    unfold value at h
    split at h
    case h_7 =>
      obtain ⟨⟨items, after⟩, found, h⟩ := map_eq_ok_iff.1 h
      cases h
      exact orderedItems_iff.2 (finds_items ih _ _ _ found)
    case h_8 =>
      obtain ⟨⟨members, after⟩, found, h⟩ := map_eq_ok_iff.1 h
      cases h
      exact ordered_object (finds_members ih _ _ _ found)
    all_goals cases h <;> trivial

/-- **What is parsed is in order.** -/
theorem ordered_of_parse {s : String} {j : Json} (parsed : parse s = .ok j) : j.Ordered := by
  unfold parse readAll at parsed
  split at parsed
  · cases parsed
  · next found =>
    cases parsed
    exact finds_value _ _ _ _ found
  · cases parsed

end RowFilter.Json
