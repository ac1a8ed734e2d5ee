import Mathlib.Data.List.Induction
import RowFilter.Tree.Annotations

/-! A table of annotations starts empty and is changed key by key. What a key of a node holds is
decided by the last change that concerns it; how many nodes are annotated is decided by what they
hold, since no change leaves a node behind that has lost its last key. -/

namespace RowFilter.Annotations

/-- A change of a table. -/
inductive Change
  | set (id : NodeId) (key : String) (value : Json)
  | remove (id : NodeId) (key : String)
  | clear

def apply (a : Annotations) : Change → Annotations
  | .set id key value => a.set id key value
  | .remove id key => a.remove id key
  | .clear => .empty

def after (history : List Change) : Annotations := history.foldl apply .empty

/-- The change decides what a key of a node holds. -/
def Change.Decides (id : NodeId) (key : String) : Change → Prop
  | .set n k _ => n = id ∧ k = key
  | .remove n k => n = id ∧ k = key
  | .clear => True

/-- The last change that decides what a key of a node holds sets it to the value. -/
def LastSet (history : List Change) (id : NodeId) (key : String) (value : Json) : Prop :=
  ∃ before later, history = before ++ .set id key value :: later ∧
    ∀ change ∈ later, ¬change.Decides id key

variable {a : Annotations} {history : List Change} {change : Change} {id : NodeId} {key : String}
  {value : Json}

theorem after_concat (history : List Change) (change : Change) :
    after (history ++ [change]) = (after history).apply change := by
  rw [after, after, List.foldl_append]
  rfl

/-! ## What a key holds -/

theorem get?_apply :
    (a.apply change).get? id key = some value ↔
      change = .set id key value ∨ (¬change.Decides id key ∧ a.get? id key = some value) := by
  cases change with
  | set n k v =>
    simp only [apply, get?_set, Change.Decides, Change.set.injEq]
    grind
  | remove n k =>
    simp only [apply, get?_remove, Change.Decides]
    grind
  | clear => simp [apply, get?_empty, Change.Decides]

/-- A longer history says the same, unless its last change decides. -/
theorem lastSet_concat :
    LastSet (history ++ [change]) id key value ↔
      change = .set id key value ∨ (¬change.Decides id key ∧ LastSet history id key value) := by
  constructor
  · rintro ⟨before, later, parts, undecided⟩
    rcases List.eq_nil_or_concat later with rfl | ⟨rest, last, rfl⟩
    · obtain ⟨-, same⟩ := List.append_inj' parts rfl
      exact .inl (List.singleton_inj.1 same)
    · have shorter : history ++ [change] = (before ++ .set id key value :: rest) ++ [last] := by
        simpa using parts
      obtain ⟨rfl, same⟩ := List.append_inj' shorter rfl
      obtain rfl := List.singleton_inj.1 same
      refine .inr ⟨undecided change (by simp), before, rest, rfl, fun c mem => ?_⟩
      exact undecided c (by simp [mem])
  · rintro (rfl | ⟨undecided, before, later, rfl, others⟩)
    · exact ⟨history, [], rfl, nofun⟩
    · refine ⟨before, later ++ [change], by simp, fun c mem => ?_⟩
      rcases List.mem_append.1 mem with old | new
      · exact others c old
      · exact List.mem_singleton.1 new ▸ undecided

/-- **A key holds what the history says last about it.** -/
theorem get?_after (history : List Change) (id : NodeId) (key : String) (value : Json) :
    (after history).get? id key = some value ↔ LastSet history id key value := by
  induction history using List.reverseRecOn with
  | nil =>
    rw [after, List.foldl_nil, get?_empty]
    constructor
    · nofun
    · rintro ⟨before, later, parts, -⟩
      simp at parts
  | append_singleton history change ih => rw [after_concat, get?_apply, lastSet_concat, ih]

/-! ## Which nodes are kept -/

/-- No node is kept without keys. -/
def Compact (a : Annotations) : Prop :=
  ∀ (id : NodeId) (keys : Std.HashMap String Json),
    a.entries[id]? = some keys → keys.isEmpty = false

theorem compact_empty : empty.Compact := by
  intro id keys held
  simp [empty] at held

theorem Compact.set (h : a.Compact) (id : NodeId) (key : String) (value : Json) :
    (a.set id key value).Compact := by
  intro n keys held
  simp only [Annotations.set, Std.HashMap.getElem?_insert] at held
  split at held
  · obtain rfl := Option.some.inj held
    exact Std.HashMap.isEmpty_insert
  · exact h n keys held

theorem Compact.remove (h : a.Compact) (id : NodeId) (key : String) :
    (a.remove id key).Compact := by
  rw [Annotations.remove, take]
  cases own : a.entries[id]? with
  | none => exact h
  | some keys =>
    intro n keys' held
    by_cases last : (keys.erase key).isEmpty = true
    · simp only [last, if_true, Std.HashMap.getElem?_erase] at held
      split at held
      · cases held
      · exact h n keys' held
    · simp only [Bool.not_eq_true] at last
      simp only [last, Bool.false_eq_true, if_false, Std.HashMap.getElem?_insert] at held
      split at held
      · exact Option.some.inj held ▸ last
      · exact h n keys' held

theorem Compact.apply (h : a.Compact) (change : Change) : (a.apply change).Compact := by
  cases change with
  | set id key value => exact h.set id key value
  | remove id key => exact h.remove id key
  | clear => exact compact_empty

theorem compact_after (history : List Change) : (after history).Compact := by
  induction history using List.reverseRecOn with
  | nil => exact compact_empty
  | append_singleton history change ih =>
    rw [after_concat]
    exact ih.apply change

theorem Compact.mem_iff (h : a.Compact) :
    id ∈ a.entries ↔ ∃ key value, a.get? id key = some value := by
  simp only [get?_eq, Std.HashMap.mem_iff_isSome_getElem?, Option.isSome_iff_exists]
  constructor
  · rintro ⟨keys, held⟩
    obtain ⟨key, mem⟩ := Std.HashMap.isEmpty_eq_false_iff_exists_mem.1 (h id keys held)
    exact ⟨key, keys[key], by rw [held, Option.bind_some, Std.HashMap.getElem?_eq_some_getElem mem]⟩
  · rintro ⟨key, value, held⟩
    obtain ⟨keys, own, -⟩ := Option.bind_eq_some_iff.1 held
    exact ⟨keys, own⟩

theorem Compact.isEmpty_iff (h : a.Compact) :
    a.isEmpty = true ↔ ∀ id key, a.get? id key = none := by
  rw [isEmpty, Std.HashMap.isEmpty_iff_forall_not_mem]
  simp only [h.mem_iff, not_exists, Option.eq_none_iff_forall_ne_some]

/-- **What a table holds after any history of changes.** A key of a node holds what it was last set
to, unless it has been taken or the table cleared since. What is taken is what was there, and nothing
else goes with it. The annotated nodes are those that hold something, so that the table is empty
exactly if none does, and no node is kept without keys. Only the value `true` is a mark. -/
theorem after_history (history : List Change) :
    let a := after history
    (∀ id key value, a.get? id key = some value ↔ LastSet history id key value) ∧
      (∀ id key, (a.take id key).1 = a.get? id key ∧
        ∀ n k, (a.take id key).2.get? n k = if n = id ∧ k = key then none else a.get? n k) ∧
      (∃ nodes : List NodeId, nodes.Nodup ∧ nodes.length = a.count ∧
        ∀ id, id ∈ nodes ↔ ∃ key value, a.get? id key = some value) ∧
      (a.isEmpty = true ↔ ∀ id key, a.get? id key = none) ∧
      a.Compact ∧
      ∀ id key, a.isMarked id key = true ↔ a.get? id key = some (.bool true) := by
  intro a
  have compact : a.Compact := compact_after history
  refine ⟨get?_after history, fun id key => ⟨a.take_fst id key, fun n k => ?_⟩, ?_,
    compact.isEmpty_iff, compact, a.isMarked_iff⟩
  · exact a.get?_remove id n key k
  · refine ⟨a.entries.keys, Std.HashMap.nodup_keys, Std.HashMap.length_keys, fun id => ?_⟩
    rw [Std.HashMap.mem_keys, compact.mem_iff]

end RowFilter.Annotations
