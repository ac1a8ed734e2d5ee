import Std.Data.HashMap.Lemmas
import RowFilter.Json.Basic
import RowFilter.Tree.Basic

namespace RowFilter

structure Annotations where
  entries : Std.HashMap NodeId (Std.HashMap String Json)

namespace Annotations

def empty : Annotations := ⟨∅⟩

def keys (a : Annotations) (id : NodeId) : Std.HashMap String Json := a.entries.getD id ∅

def set (a : Annotations) (id : NodeId) (key : String) (value : Json) : Annotations :=
  ⟨a.entries.insert id ((a.keys id).insert key value)⟩

def get? (a : Annotations) (id : NodeId) (key : String) : Option Json := (a.keys id)[key]?

def isMarked (a : Annotations) (id : NodeId) (key : String) : Bool :=
  match a.get? id key with
  | some (.bool true) => true
  | _ => false

/-- Takes a key from a node, with the value it had; a node without further keys goes with it. -/
def take (a : Annotations) (id : NodeId) (key : String) : Option Json × Annotations :=
  match a.entries[id]? with
  | none => (none, a)
  | some keys =>
    let rest := keys.erase key
    (keys[key]?, if rest.isEmpty then ⟨a.entries.erase id⟩ else ⟨a.entries.insert id rest⟩)

def remove (a : Annotations) (id : NodeId) (key : String) : Annotations := (a.take id key).2

/-- The number of nodes with at least one key. -/
def count (a : Annotations) : Nat := a.entries.size

def isEmpty (a : Annotations) : Bool := a.entries.isEmpty

theorem get?_empty (id : NodeId) (key : String) : empty.get? id key = none := by
  simp [get?, keys, empty]

theorem get?_set (a : Annotations) (id n : NodeId) (key k : String) (value : Json) :
    (a.set id key value).get? n k = if n = id ∧ k = key then some value else a.get? n k := by
  unfold get? keys set
  rw [Std.HashMap.getD_insert]
  by_cases same : id = n
  · subst same
    rw [if_pos BEq.rfl, Std.HashMap.getElem?_insert]
    grind [keys]
  · rw [if_neg (by simpa using same), if_neg fun h => same h.1.symm]

theorem get?_eq (a : Annotations) (id : NodeId) (key : String) :
    a.get? id key = (a.entries[id]?).bind fun keys => keys[key]? := by
  rw [get?, keys, Std.HashMap.getD_eq_getD_getElem?]
  cases a.entries[id]? <;> simp

theorem take_fst (a : Annotations) (id : NodeId) (key : String) :
    (a.take id key).1 = a.get? id key := by
  rw [get?_eq, take]
  cases a.entries[id]? <;> rfl

theorem get?_remove (a : Annotations) (id n : NodeId) (key k : String) :
    (a.remove id key).get? n k = if n = id ∧ k = key then none else a.get? n k := by
  rw [get?_eq, get?_eq, remove, take]
  cases held : a.entries[id]? with
  | none => grind
  | some keys =>
    have rest : (keys.erase key)[k]? = if k = key then none else keys[k]? := by
      rw [Std.HashMap.getElem?_erase]
      grind
    by_cases last : (keys.erase key).isEmpty = true
    · have none_left := Std.HashMap.getElem?_of_isEmpty (a := k) last
      grind
    · grind

theorem isMarked_iff (a : Annotations) (id : NodeId) (key : String) :
    a.isMarked id key = true ↔ a.get? id key = some (.bool true) := by
  unfold isMarked
  split <;> simp_all

end Annotations

end RowFilter
