import Mathlib.Data.List.Forall2
import RowFilter.Proofs.Compile.Binding

/-!
# What constants decide

A constant comes into a filter as a bound value and in no other way. Neither the
text of a clause, nor the errors, nor what else is bound depends on it, as long
as it can be bound at all.

* `Expr.Alike`: expressions that differ in supported constants only;
* `Expr.Alike.leaves`: their leaves differ one by one;
* `Expr.Alike.sql?`: they have one clause;
* `Compiler.compile_alike`: their filters differ in the values bound for the
  constants that differ.
-/

namespace RowFilter

/-- The constant can be bound wherever it stands. -/
def Value.Supported (v : Value) : Prop := v.isPrimitive = true ∧ v.isNonFinite = false

/-- The expressions are the same but for some constants, which are supported in both. -/
inductive Expr.Alike : Expr Value → Expr Value → Prop
  | field (name : String) : Alike (.field name) (.field name)
  | parameter : Alike .parameter .parameter
  | literal (v : Value) : Alike (.literal v) (.literal v)
  | changed {v w : Value} (before : v.Supported) (after : w.Supported) :
      Alike (.literal v) (.literal w)
  | binary (op : BinaryOp) {l l' r r' : Expr Value} (left : Alike l l') (right : Alike r r') :
      Alike (.binary op l r) (.binary op l' r')

/-- Leaves of two expressions that differ in supported constants only. -/
inductive Leaf.Alike : Leaf → Leaf → Prop
  | same (leaf : Leaf) : Alike leaf leaf
  | changed (place : NodeId) (inContext : Bool) {v w : Value} (before : v.Supported)
      (after : w.Supported) : Alike ⟨place, inContext, .literal v⟩ ⟨place, inContext, .literal w⟩

/-- The places of the constants that are bound, in the order in which they are. -/
def Tree.boundPlaces (s : Schema) (t : Tree) : List NodeId :=
  ((t.leaves s).filter Leaf.isSupported).map Leaf.place

namespace Tree

variable {s : Schema} {t : Tree}

/-- The leaf for which a value is bound stands at its place. -/
theorem leaf_of_boundPlaces {position id : Nat} (h : (t.boundPlaces s)[position]? = some id) :
    ∃ leaf, ((t.leaves s).filter Leaf.isSupported)[position]? = some leaf ∧
      t.leaf? s id = some leaf := by
  rw [boundPlaces, List.getElem?_map] at h
  obtain ⟨leaf, found, rfl⟩ := Option.map_eq_some_iff.1 h
  have mem := List.mem_of_mem_filter (List.mem_of_getElem? found)
  exact ⟨leaf, found, mem_leaves.1 mem⟩

theorem atom_of_leaf? {t' : Tree} {id : NodeId} {leaf leaf' : Leaf} (same : t.node? id = t'.node? id)
    (inside : t.leaf? s id = some leaf) (inside' : t'.leaf? s id = some leaf') :
    leaf.atom = leaf'.atom := by
  obtain ⟨node, atom, is_node, is_atom, rfl⟩ := leaf?_eq_some_iff.1 inside
  obtain ⟨node', atom', is_node', is_atom', rfl⟩ := leaf?_eq_some_iff.1 inside'
  obtain rfl := Option.some.inj (is_node.symm.trans (same.trans is_node'))
  exact Option.some.inj (is_atom.symm.trans is_atom')

end Tree

/-! ## Leaves -/

theorem Value.Supported.isSupported {v : Value} (h : v.Supported) (place : NodeId)
    (inContext : Bool) : (⟨place, inContext, .literal v⟩ : Leaf).isSupported = true := by
  simp [Leaf.isSupported, h.1, h.2]

theorem Value.Supported.bound?_isSome {v : Value} (h : v.Supported) (inContext : Bool) :
    (Compiler.bound? inContext v).isSome = true := by
  have text : v.documentText?.isSome = true := by simp [Value.documentText?_isSome, h.1, h.2]
  cases inContext <;> simp [Compiler.bound?, h.1, text]

namespace Leaf.Alike

variable {leaf leaf' : Leaf} (h : leaf.Alike leaf')
include h

theorem place : leaf.place = leaf'.place := by cases h <;> rfl

theorem isSupported : leaf.isSupported = leaf'.isSupported := by
  cases h with
  | same => rfl
  | changed place inContext before after =>
    rw [before.isSupported place inContext, after.isSupported place inContext]

theorem eq_of_atom (same : leaf.atom = leaf'.atom) : leaf = leaf' := by
  cases h with
  | same => rfl
  | changed place inContext before after =>
    obtain rfl := Atom.literal.inj same
    rfl

theorem error? (c : Compiler) : leaf.error? c = leaf'.error? c := by
  cases h with
  | same => rfl
  | changed place inContext before after =>
    simp [Leaf.error?, Leaf.fault?, before.bound?_isSome, after.bound?_isSome]

end Leaf.Alike

section
variable {leaves leaves' : List Leaf} (h : List.Forall₂ Leaf.Alike leaves leaves')
include h

theorem Leaf.filterMap_error?_of_alike (c : Compiler) :
    leaves.filterMap (Leaf.error? c) = leaves'.filterMap (Leaf.error? c) := by
  induction h with
  | nil => rfl
  | cons head _ ih => rw [List.filterMap_cons, List.filterMap_cons, head.error?, ih]

theorem Leaf.alike_of_getElem? {position : Nat} {leaf leaf' : Leaf}
    (found : leaves[position]? = some leaf) (found' : leaves'[position]? = some leaf') :
    leaf.Alike leaf' := by
  obtain ⟨inside, rfl⟩ := List.getElem?_eq_some_iff.1 found
  obtain ⟨inside', rfl⟩ := List.getElem?_eq_some_iff.1 found'
  exact h.get inside inside'

theorem Leaf.map_place_of_alike : leaves.map Leaf.place = leaves'.map Leaf.place := by
  induction h with
  | nil => rfl
  | cons head _ ih => rw [List.map_cons, List.map_cons, head.place, ih]

theorem Leaf.filter_isSupported_of_alike :
    List.Forall₂ Leaf.Alike (leaves.filter Leaf.isSupported) (leaves'.filter Leaf.isSupported) :=
  List.rel_filter (fun _ _ alike => Bool.eq_iff_iff.1 alike.isSupported) h

end

/-! ## Expressions -/

theorem Expr.length_parameters (s : Schema) (inContext : Bool) (e : Expr Value) :
    (e.parameters s inContext).length =
      ((e.leaves s inContext 0).filter Leaf.isSupported).length := by
  have entries := congrArg List.length
    (Leaf.map_some_filterMap_bound? (e.leaves s inContext 0))
  rwa [List.length_map, List.length_map] at entries

namespace Expr.Alike

variable {e e' : Expr Value} (h : e.Alike e')
include h

theorem size : e.size = e'.size := by
  induction h with
  | binary op _ _ hl hr => simp only [Expr.size, hl, hr]
  | _ => rfl

theorem isMarked (s : Schema) : e.isMarked s = e'.isMarked s := by
  induction h with
  | binary op _ _ hl hr => cases op <;> simp only [Expr.isMarked, hl, hr]
  | _ => rfl

theorem leaves (s : Schema) (inContext : Bool) (start : Nat) :
    List.Forall₂ Leaf.Alike (e.leaves s inContext start) (e'.leaves s inContext start) := by
  induction h generalizing inContext start with
  | field | parameter | literal => exact .cons (.same _) .nil
  | changed before after => exact .cons (.changed start inContext before after) .nil
  | binary op left right hl hr =>
    have within := (Expr.Alike.binary op left right).isMarked s
    simp only [Expr.leaves, Expr.within, within, left.size]
    exact List.rel_append (hl _ _) (hr _ _)

theorem length_parameters (s : Schema) (inContext : Bool) :
    (e.parameters s inContext).length = (e'.parameters s inContext).length := by
  rw [Expr.length_parameters, Expr.length_parameters]
  exact (Leaf.filter_isSupported_of_alike (h.leaves s inContext 0)).length_eq

/-- **Constants do not show in a clause.** -/
theorem sql? (c : Compiler) (inContext : Bool) (bound : Nat) :
    e.sql? c inContext bound = e'.sql? c inContext bound := by
  induction h generalizing inContext bound with
  | changed before after =>
    obtain ⟨x, is_bound⟩ := Option.isSome_iff_exists.1 (before.bound?_isSome inContext)
    obtain ⟨y, is_bound'⟩ := Option.isSome_iff_exists.1 (after.bound?_isSome inContext)
    simp only [Expr.sql?, is_bound, is_bound', Option.map_some]
  | binary op left right hl hr =>
    have within := (Expr.Alike.binary op left right).isMarked c.schema
    simp only [Expr.sql?, Expr.within, within, hl, hr, left.length_parameters]
  | _ => rfl

end Expr.Alike

/-! ## Filters -/

namespace Compiler

theorem map_some_parameters (c : Compiler) (e : Expr Value) :
    (c.compile (Tree.ofExpr e)).parameters.map some =
      (((Tree.ofExpr e).leaves c.schema).filter Leaf.isSupported).map Leaf.asBound? := by
  rw [Tree.leaves_ofExpr, compile_ofExpr]
  exact Leaf.map_some_filterMap_bound? _

theorem getElem?_parameters (c : Compiler) (e : Expr Value) (position : Nat) :
    ((c.compile (Tree.ofExpr e)).parameters[position]?).map some =
      ((((Tree.ofExpr e).leaves c.schema).filter Leaf.isSupported)[position]?).map
        Leaf.asBound? := by
  rw [← List.getElem?_map, ← List.getElem?_map, map_some_parameters]

theorem length_parameters (c : Compiler) (e : Expr Value) :
    (c.compile (Tree.ofExpr e)).parameters.length =
      ((Tree.ofExpr e).boundPlaces c.schema).length := by
  have entries := congrArg List.length (c.map_some_parameters e)
  rwa [List.length_map, List.length_map, ← List.length_map (f := Leaf.place)] at entries

/-- **Constants do not reach beyond what is bound for them.** If two expressions differ in supported
constants only, one clause and the same errors come of both, whatever else fails in them, and they
bind values for the same places; a place that holds the same in both is bound to the same value. -/
theorem compile_alike (c : Compiler) {e e' : Expr Value} (h : e.Alike e') :
    let t := Tree.ofExpr e
    let t' := Tree.ofExpr e'
    (c.compile t).clause = (c.compile t').clause ∧
    (c.compile t).errors = (c.compile t').errors ∧
    (c.compile t).parameters.length = (c.compile t').parameters.length ∧
    (c.compile t).parameters.length = (t.boundPlaces c.schema).length ∧
    t.boundPlaces c.schema = t'.boundPlaces c.schema ∧
    ∀ position id : Nat, (t.boundPlaces c.schema)[position]? = some id →
      t.node? id = t'.node? id →
      (c.compile t).parameters[position]? = (c.compile t').parameters[position]? := by
  intro t t'
  have leaves : List.Forall₂ Leaf.Alike (t.leaves c.schema) (t'.leaves c.schema) := by
    rw [Tree.leaves_ofExpr, Tree.leaves_ofExpr]
    exact h.leaves c.schema false 0
  have bound := Leaf.filter_isSupported_of_alike leaves
  have places : t.boundPlaces c.schema = t'.boundPlaces c.schema := Leaf.map_place_of_alike bound
  refine ⟨?_, ?_, ?_, c.length_parameters e, places, ?_⟩
  · simp only [t, t', compile_ofExpr, h.sql?]
  · simp only [t, t', compile_ofExpr]
    exact Leaf.filterMap_error?_of_alike (h.leaves c.schema false 0) c
  · rw [c.length_parameters e, c.length_parameters e']
    exact congrArg List.length places
  · intro position id place same
    obtain ⟨leaf, is_bound, inside⟩ := Tree.leaf_of_boundPlaces place
    obtain ⟨leaf', is_bound', inside'⟩ := Tree.leaf_of_boundPlaces (places ▸ place)
    have alike := Leaf.alike_of_getElem? bound is_bound is_bound'
    obtain rfl : leaf = leaf' := alike.eq_of_atom (Tree.atom_of_leaf? same inside inside')
    have values : ((c.compile t).parameters[position]?).map some =
        ((c.compile t').parameters[position]?).map some := by
      rw [c.getElem?_parameters, c.getElem?_parameters, is_bound, is_bound']
    exact Option.map_injective (fun _ _ => Option.some.inj) values

theorem compile_alike_beside_failure :
    let e (v : Value) : Expr Value := .binary .and
      (.binary .equals (.field "title") (.literal v))
      (.binary .or (.binary .equals (.field "ID") (.literal (.int32 5))) .parameter)
    let f (v : Value) : Filter := default.compile (Tree.ofExpr (e v))
    (e (.string "'; --")).Alike (e (.bool true)) ∧
      (f (.string "'; --")).clause = (f (.bool true)).clause ∧
      (f (.string "'; --")).errors = (f (.bool true)).errors ∧
      (f (.string "'; --")).parameters[1]? = (f (.bool true)).parameters[1]? := by
  intro e f
  have alike : (e (.string "'; --")).Alike (e (.bool true)) :=
    .binary .and (.binary .equals (.field "title") (.changed ⟨rfl, rfl⟩ ⟨rfl, rfl⟩))
      (.binary .or (.binary .equals (.field "ID") (.literal (.int32 5))) .parameter)
  have place : ((Tree.ofExpr (e (.string "'; --"))).boundPlaces default.schema)[1]? = some 4 := by
    rw [Tree.boundPlaces, Tree.leaves_ofExpr]
    decide +kernel
  have node (v : Value) : (Tree.ofExpr (e v)).node? 4 = some (.literal (.int32 5)) :=
    (Tree.ofExpr_holds (e v)).right.left.right.node?
  obtain ⟨clause, errors, -, -, -, values⟩ := compile_alike default alike
  exact ⟨alike, clause, errors, values 1 4 place ((node _).trans (node _).symm)⟩

end Compiler

end RowFilter
