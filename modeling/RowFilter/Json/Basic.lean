import RowFilter.Binary64.Basic
import RowFilter.Json.Members

/-! Numbers are integers of 64 bits, signed or unsigned, or finite double-precision numbers; the two
never mix. The members of an object are kept in ascending order of their names, each name once,
which `object` sees to. -/

namespace RowFilter

inductive Number
  | int (n : Int) (fits : -0x8000000000000000 ≤ n ∧ n < 0x10000000000000000)
  | float (x : Binary64) (finite : x.isFinite = true)
  deriving DecidableEq, Repr

inductive Json
  | null
  | bool (b : Bool)
  | num (n : Number)
  | str (s : String)
  | arr (items : List Json)
  | obj (members : List (String × Json))
  deriving Repr

namespace Number

def ofInt? (n : Int) : Option Number :=
  if h : -0x8000000000000000 ≤ n ∧ n < 0x10000000000000000 then some (.int n h) else none

/-- NaN and the infinities are not numbers of a document. -/
def ofBinary64? (x : Binary64) : Option Number :=
  if h : x.isFinite = true then some (.float x h) else none

/-- An integer never equals a number written as a fraction. -/
def equal : Number → Number → Bool
  | .int m _, .int n _ => m == n
  | .float x _, .float y _ => x.equal y
  | _, _ => false

end Number

namespace Json

def object (members : List (String × Json)) : Json := .obj (Members.ofList members)

def ofInt (n : Int) : Json := ((Number.ofInt? n).map .num).getD .null

def ofNat (n : Nat) : Json := ofInt n

mutual

/-- Equality of values. -/
def equal : Json → Json → Bool
  | .null, .null => true
  | .bool a, .bool b => a == b
  | .num m, .num n => m.equal n
  | .str s, .str t => s == t
  | .arr xs, .arr ys => equalItems xs ys
  | .obj xs, .obj ys => equalMembers xs ys
  | _, _ => false

def equalItems : List Json → List Json → Bool
  | [], [] => true
  | x :: xs, y :: ys => equal x y && equalItems xs ys
  | _, _ => false

def equalMembers : List (String × Json) → List (String × Json) → Bool
  | [], [] => true
  | (m, x) :: xs, (n, y) :: ys => m == n && equal x y && equalMembers xs ys
  | _, _ => false

end

mutual

/-- Whether every object inside the value has its members in order. -/
def Ordered : Json → Prop
  | .arr items => OrderedItems items
  | .obj members => Members.Ascending members ∧ OrderedMembers members
  | _ => True

def OrderedItems : List Json → Prop
  | [] => True
  | x :: xs => x.Ordered ∧ OrderedItems xs

def OrderedMembers : List (String × Json) → Prop
  | [] => True
  | (_, x) :: xs => x.Ordered ∧ OrderedMembers xs

end

mutual

/-- The greatest number of lists and objects around any part of the value. -/
def depth : Json → Nat
  | .arr items => depthItems items + 1
  | .obj members => depthMembers members + 1
  | _ => 0

def depthItems : List Json → Nat
  | [] => 0
  | x :: xs => max x.depth (depthItems xs)

def depthMembers : List (String × Json) → Nat
  | [] => 0
  | (_, x) :: xs => max x.depth (depthMembers xs)

end

theorem orderedItems_iff {items : List Json} : OrderedItems items ↔ ∀ x ∈ items, x.Ordered := by
  induction items with
  | nil => simp [OrderedItems]
  | cons x xs ih => simp [OrderedItems, ih]

theorem orderedMembers_iff {members : List (String × Json)} :
    OrderedMembers members ↔ ∀ m ∈ members, m.2.Ordered := by
  induction members with
  | nil => simp [OrderedMembers]
  | cons m ms ih => simp [OrderedMembers, ih]

/-- An object of ordered values is ordered, whatever the order its members are given in. -/
theorem ordered_object {members : List (String × Json)} (h : ∀ m ∈ members, m.2.Ordered) :
    (object members).Ordered :=
  ⟨Members.ofList_ascending members,
    orderedMembers_iff.2 fun m hm => h m (Members.mem_of_mem_ofList hm)⟩

def get? (name : String) : Json → Option Json
  | .obj members => members.lookup name
  | _ => none

/-- Of several members with one name the last counts. -/
theorem get?_object (name : String) (members : List (String × Json)) :
    (object members).get? name = members.reverse.lookup name := Members.lookup_ofList name members

end Json

end RowFilter
