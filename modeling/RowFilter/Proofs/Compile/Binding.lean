import RowFilter.Proofs.Compile.Quotation
import RowFilter.Proofs.Compile.TreeLeaves
import RowFilter.Proofs.Sql.References

/-!
# What is bound

Values are bound in the order in which the tree stores its leaves, and the text
of a clause refers to them in the order in which operands stand in it. The two
orders are one.

* `Leaf.bound?_eq`: which constants are bound, and as what;
* `Expr.positions_of_sql?`, `Expr.casts_of_sql?`: the references in a clause;
* `Compiler.compile_binds`: the values of a filter, and how its clause refers to
  them.
-/

namespace RowFilter

/-- No document can hold such a number. -/
def Value.isNonFinite : Value → Bool
  | .float x => !x.isFinite
  | _ => false

theorem Value.documentText?_isSome (v : Value) :
    v.documentText?.isSome = (v.isPrimitive && !v.isNonFinite) := by
  cases v with
  | float x => cases finite : x.isFinite <;> simp [documentText?, isPrimitive, isNonFinite, finite]
  | _ => rfl

namespace Leaf

def isLiteral (leaf : Leaf) : Bool :=
  match leaf.atom with
  | .literal _ => true
  | _ => false

def isSupported (leaf : Leaf) : Bool :=
  match leaf.atom with
  | .literal v => v.isPrimitive && !(leaf.inContext && v.isNonFinite)
  | _ => false

/-- What is bound for a constant: in document context its text there, else the value itself. -/
def asBound? (leaf : Leaf) : Option Value :=
  match leaf.atom with
  | .literal v => if leaf.inContext then v.documentText?.map .string else some v
  | _ => none

theorem bound?_eq (leaf : Leaf) :
    leaf.bound? = if leaf.isSupported then leaf.asBound? else none := by
  rcases leaf with ⟨place, inContext, atom⟩
  cases atom with
  | literal v =>
    have text := v.documentText?_isSome
    simp only [bound?, isSupported, asBound?, Compiler.bound?]
    by_cases primitive : v.isPrimitive = true
    · cases inContext with
      | false => simp [primitive]
      | true =>
        by_cases nonFinite : v.isNonFinite = true
        · have none : v.documentText? = none := by simpa [primitive, nonFinite] using text
          simp [none]
        · simp [primitive, nonFinite]
    · simp [primitive]
  | _ => rfl

theorem asBound?_isSome {leaf : Leaf} (h : leaf.isSupported = true) :
    leaf.asBound?.isSome = true := by
  rcases leaf with ⟨place, inContext, atom⟩
  cases atom with
  | literal v =>
    simp only [isSupported, Bool.and_eq_true] at h
    cases inContext with
    | false => rfl
    | true => simpa [asBound?, Value.documentText?_isSome, h.1] using h.2
  | _ => cases h

theorem map_some_filterMap_bound? (leaves : List Leaf) :
    (leaves.filterMap bound?).map some = (leaves.filter isSupported).map asBound? := by
  induction leaves with
  | nil => rfl
  | cons leaf leaves ih =>
    rw [List.filterMap_cons, List.filter_cons, bound?_eq]
    cases supported : leaf.isSupported with
    | false => simpa using ih
    | true =>
      obtain ⟨v, entry⟩ := Option.isSome_iff_exists.1 (asBound?_isSome supported)
      simp [entry, ih]

end Leaf

theorem Compiler.reference?_joined (c : Compiler) (op : BinaryOp) (x y : Sql) :
    (c.joined op x y).fragments.filterMap Fragment.reference? =
      x.fragments.filterMap Fragment.reference? ++ y.fragments.filterMap Fragment.reference? := by
  cases op <;> simp [joined, List.filterMap_cons, Fragment.reference?]

namespace Expr

variable (c : Compiler) {e : Expr Value} {inContext : Bool} {bound : Nat} {q : Sql}

/-- **References count on from what was bound before**, one for each value. -/
theorem positions_of_sql? (h : e.sql? c inContext bound = some q) :
    (q.fragments.filterMap Fragment.reference?).map Prod.fst =
      List.range' bound (e.parameters c.schema inContext).length := by
  induction e generalizing inContext bound q with
  | field name =>
    rcases Compiler.fieldClause_ok (sql?_field h) with ⟨-, -, rfl⟩ | ⟨-, rfl⟩ <;> rfl
  | parameter => cases h
  | literal v =>
    obtain ⟨w, is_bound, rfl⟩ := Option.map_eq_some_iff.1 h
    simp [is_bound, Fragment.reference?]
  | binary op l r hl hr =>
    obtain ⟨x, y, left, right, rfl⟩ := sql?_binary h
    rw [c.reference?_joined, List.map_append, hl left, hr right, parameters_binary,
      List.length_append, ← List.range'_append_1]

/-- A reference has a cast exactly if its constant is in document context. -/
theorem casts_of_sql? (start : Nat) (h : e.sql? c inContext bound = some q) :
    (q.fragments.filterMap Fragment.reference?).map Prod.snd =
      ((e.leaves c.schema inContext start).filter Leaf.isLiteral).map Leaf.inContext := by
  induction e generalizing inContext bound start q with
  | field name =>
    rcases Compiler.fieldClause_ok (sql?_field h) with ⟨-, -, rfl⟩ | ⟨-, rfl⟩ <;> rfl
  | parameter => cases h
  | literal v =>
    obtain ⟨w, -, rfl⟩ := Option.map_eq_some_iff.1 h
    rfl
  | binary op l r hl hr =>
    obtain ⟨x, y, left, right, rfl⟩ := sql?_binary h
    rw [c.reference?_joined, List.map_append, hl start left, hr (start + l.size) right, leaves,
      List.filter_append, List.map_append]

end Expr

namespace Compiler

/-- A clause is read back as the references it was written from. -/
theorem references_of_clause {c : Compiler} {e : Expr Value} {q : Sql} {text : List Char}
    (compiled : e.sql? c false 0 = some q)
    (written : text = q.fragments.flatMap (Fragment.write c.dialect)) :
    Sql.references c.dialect false text =
      (q.fragments.filterMap Fragment.reference?).map fun r =>
        (c.dialect.placeholder r.1, r.2) := by
  rw [written]
  exact Fragment.references_write c.dialect q.fragments (Expr.safe_of_sql? c compiled) q.separated

/-- **The values of a filter are those of the supported constants in the order of storage**, others
failing or not. Its clause refers to each of them once: by as many question marks, or by the numbers
from one on in the order of the text, with a cast for the constants in document context. -/
theorem compile_binds (c : Compiler) (e : Expr Value) :
    let t := Tree.ofExpr e
    let f := c.compile t
    f.parameters.map some =
        ((t.leaves c.schema).filter Leaf.isSupported).map Leaf.asBound? ∧
      ∀ text, f.clause = some text →
        (c.dialect = .questionMark → text.toList.count '?' = f.parameters.length) ∧
        (c.dialect = .postgres → (Sql.references c.dialect false text.toList).map Prod.fst =
          (List.range' 1 f.parameters.length).map fun n => '$' :: Text.natural n) ∧
        (Sql.references c.dialect false text.toList).map Prod.snd =
          ((t.leaves c.schema).filter Leaf.isLiteral).map Leaf.inContext := by
  intro t f
  have parameters : f.parameters = e.parameters c.schema false := by
    simp only [f, t, compile_ofExpr]
  have leaves : t.leaves c.schema = e.leaves c.schema false 0 := Tree.leaves_ofExpr c.schema e
  rw [leaves, parameters]
  refine ⟨Leaf.map_some_filterMap_bound? _, fun text clause => ?_⟩
  obtain ⟨q, compiled, written⟩ := clause_eq_some clause
  have positions := Expr.positions_of_sql? c compiled
  have found := references_of_clause compiled written
  refine ⟨fun anonymous => ?_, fun numbered => ?_, ?_⟩
  · have safe := Expr.safe_of_sql? c compiled
    rw [anonymous] at written safe
    rw [written, Fragment.count_write q.fragments safe, ← List.length_map (f := Prod.fst),
      positions, List.length_range']
  · calc (Sql.references c.dialect false text.toList).map Prod.fst
        = ((q.fragments.filterMap Fragment.reference?).map Prod.fst).map
            c.dialect.placeholder := by
          rw [found, List.map_map, List.map_map]
          rfl
      _ = (List.range' 0 (e.parameters c.schema false).length).map fun position =>
            '$' :: Text.natural (position + 1) := by
          rw [positions, numbered]
          rfl
      _ = (List.range' 1 (e.parameters c.schema false).length).map fun n =>
            '$' :: Text.natural n := by
          rw [List.range'_succ_left, List.map_map]
          rfl
  · rw [found, List.map_map]
    exact Expr.casts_of_sql? c 0 compiled

theorem compile_binds_numbered :
    let c : Compiler := ⟨.default, Schema.default_valid, .postgres⟩
    let e : Expr Value := .binary .and
      (.binary .equals (.field "a$1") (.literal (.bool true)))
      (.binary .equals (.field "ID") (.literal (.string "?")))
    let text := "((Fields->'a$1' = $1::jsonb) and (ID = $2))"
    (c.compile (Tree.ofExpr e)).clause = some text ∧
      (Sql.references .postgres false text.toList).map Prod.fst =
        (List.range' 1 (c.compile (Tree.ofExpr e)).parameters.length).map fun n =>
          '$' :: Text.natural n := by
  intro c e text
  have clause : (c.compile (Tree.ofExpr e)).clause = some text := by
    rw [compile_ofExpr]
    decide +kernel
  exact ⟨clause, ((compile_binds c e).2 text clause).2.1 rfl⟩

end Compiler

end RowFilter
