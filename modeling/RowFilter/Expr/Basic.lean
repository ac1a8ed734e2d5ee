namespace RowFilter

inductive BinaryOp
  | and
  | or
  | equals
  | textMatch
  deriving DecidableEq, Repr

/-- The name of an operator in documents and outlines. -/
def BinaryOp.name : BinaryOp → String
  | .and => "and"
  | .or => "or"
  | .equals => "equals"
  | .textMatch => "matches"

inductive Expr (α : Type)
  /-- A named attribute of the row. -/
  | field (name : String)
  /-- A value to be supplied later. -/
  | parameter
  | literal (value : α)
  | binary (op : BinaryOp) (left right : Expr α)
  deriving DecidableEq, Repr

namespace Expr

variable {α β : Type}

def map (f : α → β) : Expr α → Expr β
  | .field name => .field name
  | .parameter => .parameter
  | .literal v => .literal (f v)
  | .binary op l r => .binary op (l.map f) (r.map f)

def size : Expr α → Nat
  | .binary _ l r => l.size + r.size + 1
  | _ => 1

def literals : Expr α → List α
  | .literal v => [v]
  | .binary _ l r => l.literals ++ r.literals
  | _ => []

/-- The parts of an expression, operands before their operator and left before right. -/
def subexpressions : Expr α → List (Expr α)
  | .binary op l r => l.subexpressions ++ r.subexpressions ++ [.binary op l r]
  | e => [e]

theorem size_pos (e : Expr α) : 0 < e.size := by cases e <;> simp [size]

@[simp] theorem size_map (f : α → β) (e : Expr α) : (e.map f).size = e.size := by
  induction e <;> simp_all [map, size]

theorem map_map {γ : Type} (g : β → γ) (f : α → β) (e : Expr α) :
    (e.map f).map g = e.map fun a => g (f a) := by
  induction e <;> simp_all [map]

@[simp] theorem length_subexpressions (e : Expr α) : e.subexpressions.length = e.size := by
  induction e with
  | binary op l r hl hr => simp only [subexpressions, size, List.length_append, hl, hr]; rfl
  | _ => rfl

@[simp] theorem literals_map (f : α → β) (e : Expr α) :
    (e.map f).literals = e.literals.map f := by
  induction e <;> simp_all [map, literals]

end Expr

end RowFilter
