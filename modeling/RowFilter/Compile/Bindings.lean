import RowFilter.Value.Basic

namespace RowFilter

structure Bindings where
  values : Array Value

namespace Bindings

def empty : Bindings := ⟨#[]⟩

/-- The number of values, which is the position of the next one. -/
def count (b : Bindings) : Nat := b.values.size

def isEmpty (b : Bindings) : Bool := b.values.isEmpty

def add (b : Bindings) (v : Value) : Bindings := ⟨b.values.push v⟩

def toList (b : Bindings) : List Value := b.values.toList

@[simp] theorem toList_empty : empty.toList = [] := rfl

@[simp] theorem toList_add (b : Bindings) (v : Value) : (b.add v).toList = b.toList ++ [v] :=
  Array.toList_push

theorem length_toList (b : Bindings) : b.toList.length = b.count := Array.length_toList

end Bindings

end RowFilter
