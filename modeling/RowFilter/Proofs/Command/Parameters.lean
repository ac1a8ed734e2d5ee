import Mathlib.Data.List.Basic
import RowFilter.Command.Report
import RowFilter.Proofs.Compile.Binding
import RowFilter.Proofs.Expr.Parsing
import RowFilter.Proofs.Value.Json

namespace RowFilter

/-- How a constant of a document is shown in a report. Inside a document it is a text of its own,
which denotes the constant again; a fraction is written out without an exponent. -/
inductive Json.Reported : Bool → Json → Json → Prop
  | itself (v : Json) : Reported false v v
  | text {v : Json} (whole : v.holdsFloat = false) {s : String} (denotes : Json.parse s = .ok v) :
      Reported true v (.str s)
  | fraction (x : Binary64) (finite : x.isFinite = true) :
      Reported true (.num (.float x finite)) (.str x.plainText)

namespace Json.Reported

variable {v shown : Json}

theorem itself_of (reported : v.Reported false shown) : shown = v := by
  cases reported
  rfl

theorem text_of (reported : v.Reported true shown) (whole : v.holdsFloat = false) :
    ∃ s, shown = .str s ∧ Json.parse s = .ok v := by
  cases reported with
  | text _ denotes => exact ⟨_, rfl, denotes⟩
  | fraction => cases whole

end Json.Reported

/-- What is bound for a constant of a document is shown as that constant, which is a scalar. -/
theorem Compiler.reported_of_bound? {inContext : Bool} {v : Json} {w : Value}
    (bound : bound? inContext (.ofJson v) = some w) :
    v.isScalar = true ∧ v.Reported inContext w.toJson := by
  unfold bound? at bound
  rw [Value.isPrimitive_ofJson] at bound
  cases scalar : v.isScalar with
  | false => simp [scalar] at bound
  | true =>
    refine ⟨rfl, ?_⟩
    simp only [scalar, Bool.not_true, Bool.false_eq_true, if_false] at bound
    cases inContext with
    | false =>
      obtain rfl : Value.ofJson v = w := Option.some.inj bound
      rw [Value.toJson_ofJson]
      exact .itself v
    | true =>
      obtain ⟨s, text, rfl⟩ := Option.map_eq_some_iff.1 bound
      cases whole : v.holdsFloat with
      | false =>
        obtain ⟨ordered, flat⟩ := Json.simple_of_isScalar scalar
        rw [Value.documentText?_ofJson scalar whole] at text
        cases text
        exact .text whole (Json.parse_text whole ordered (by omega))
      | true =>
        obtain ⟨x, finite, rfl⟩ := Json.eq_float_of_isScalar scalar whole
        rw [Value.ofJson, Value.documentText?_float finite] at text
        cases text
        exact .fraction x finite

/-! ## The constants of an expression -/

namespace Leaf

def literal? (leaf : Leaf) : Option Value :=
  match leaf.atom with
  | .literal v => some v
  | _ => none

theorem literal_of_isLiteral {leaf : Leaf} (h : leaf.isLiteral = true) :
    ∃ v, leaf = ⟨leaf.place, leaf.inContext, .literal v⟩ := by
  rcases leaf with ⟨place, inContext, atom⟩
  cases atom with
  | literal v => exact ⟨v, rfl⟩
  | _ => cases h

theorem bound?_of_not_isLiteral {leaf : Leaf} (h : leaf.isLiteral = false) :
    leaf.bound? = none := by
  rcases leaf with ⟨place, inContext, atom⟩
  cases atom with
  | literal v => cases h
  | _ => rfl

/-- If no leaf fails, a value is bound for each constant. -/
theorem map_some_filterMap_bound?_of_sound {c : Compiler} {leaves : List Leaf}
    (sound : leaves.filterMap (error? c) = []) :
    (leaves.filterMap bound?).map some = (leaves.filter isLiteral).map bound? := by
  rw [List.filterMap_eq_nil_iff] at sound
  induction leaves with
  | nil => rfl
  | cons leaf leaves ih =>
    obtain ⟨first, others⟩ := List.forall_mem_cons.1 sound
    have ih := ih others
    rw [List.filterMap_cons, List.filter_cons]
    cases literal : leaf.isLiteral with
    | false =>
      simpa [bound?_of_not_isLiteral literal] using ih
    | true =>
      obtain ⟨v, same⟩ := literal_of_isLiteral literal
      rw [same] at first ⊢
      cases is_bound : Compiler.bound? leaf.inContext v with
      | none => simp [error?, fault?, is_bound] at first
      | some w => simp [bound?, is_bound, ih]

end Leaf

theorem Expr.literals_leaves (s : Schema) (inContext : Bool) (start : Nat) (e : Expr Value) :
    ((e.leaves s inContext start).filter Leaf.isLiteral).map Leaf.literal? =
      e.literals.map some := by
  induction e generalizing inContext start with
  | binary op l r hl hr =>
    rw [leaves, List.filter_append, List.map_append, hl, hr, literals, List.map_append]
  | _ => rfl

namespace Tree

def isConstant (t : Tree) (id : NodeId) : Bool :=
  match t.node? id with
  | some (.literal _) => true
  | _ => false

/-- The nodes that hold a constant, in the order of their places. -/
def constantPlaces (t : Tree) : List NodeId := t.nodes.filter t.isConstant

theorem constantPlaces_eq (s : Schema) (t : Tree) :
    t.constantPlaces = ((t.leaves s).filter Leaf.isLiteral).map Leaf.place := by
  rw [constantPlaces, leaves]
  induction t.nodes with
  | nil => rfl
  | cons id ids ih =>
    rw [List.filter_cons, List.filterMap_cons, ih]
    cases node : t.node? id with
    | none => simp [isConstant, leaf?, node]
    | some held =>
      cases held <;>
        simp [isConstant, leaf?_of_node node, node, Node.atom?, Leaf.isLiteral, List.filter_cons]

theorem leaf_of_constantPlaces (s : Schema) {t : Tree} {position id : Nat}
    (place : t.constantPlaces[position]? = some id) :
    ∃ v inContext, t.node? id = some (.literal v) ∧
      ((t.leaves s).filter Leaf.isLiteral)[position]? = some ⟨id, inContext, .literal v⟩ := by
  rw [constantPlaces_eq s, List.getElem?_map] at place
  obtain ⟨leaf, found, rfl⟩ := Option.map_eq_some_iff.1 place
  obtain ⟨mem, literal⟩ := List.mem_filter.1 (List.mem_of_getElem? found)
  obtain ⟨v, same⟩ := Leaf.literal_of_isLiteral literal
  refine ⟨v, leaf.inContext, ?_, found.trans (congrArg some same)⟩
  obtain ⟨node, atom, is_node, is_atom, is_leaf⟩ := leaf?_eq_some_iff.1 (mem_leaves.1 mem)
  obtain rfl : Atom.literal v = atom := congrArg Leaf.atom (same.symm.trans is_leaf)
  cases node with
  | literal w =>
    cases is_atom
    exact is_node
  | _ => cases is_atom

end Tree

/-- The scan of an assembled tree finds the leaves of its expression in their context. -/
theorem Context.scope_of_leaf (s : Schema) {e : Expr Value} {leaf : Leaf}
    (mem : leaf ∈ e.leaves s false 0) :
    (scope (Tree.ofExpr e) (mark (Tree.ofExpr e) s (Tree.ofExpr e).root))[leaf.place]? =
      some leaf.inContext := by
  rw [← Tree.leaves_ofExpr] at mem
  obtain ⟨node, atom, is_node, -, is_leaf⟩ := Tree.leaf?_eq_some_iff.1 (Tree.mem_leaves.1 mem)
  have inside := Tree.node?_lt_count is_node
  rw [Tree.ofExpr_count] at inside
  rw [scope_ofExpr s e inside]
  exact congrArg some (congrArg Leaf.inContext is_leaf).symm

/-! ## Reports -/

namespace Compiler

section
variable (c : Compiler) {document : Expr Json}
  (sound : (c.compile (Tree.ofExpr document.ofDocument)).errors = [])

theorem length_constantPlaces (s : Schema) (e : Expr Value) :
    (Tree.ofExpr e).constantPlaces.length = e.literals.length := by
  have same := congrArg List.length (e.literals_leaves s false 0)
  rw [Tree.constantPlaces_eq s, Tree.leaves_ofExpr, List.length_map]
  rwa [List.length_map, List.length_map] at same

include sound

theorem map_some_parameters_of_sound :
    (c.compile (Tree.ofExpr document.ofDocument)).parameters.map some =
      (((Tree.ofExpr document.ofDocument).leaves c.schema).filter Leaf.isLiteral).map
        Leaf.bound? := by
  rw [compile_ofExpr] at sound ⊢
  rw [Tree.leaves_ofExpr]
  exact Leaf.map_some_filterMap_bound?_of_sound sound

theorem shown_at_place {position id : Nat}
    (place : (Tree.ofExpr document.ofDocument).constantPlaces[position]? = some id) :
    let t := Tree.ofExpr document.ofDocument
    ∃ v w inContext, document.literals[position]? = some v ∧
      t.node? id = some (.literal (.ofJson v)) ∧
      (Context.scope t (Context.mark t c.schema t.root))[id]? = some inContext ∧
      (c.compile t).parameters[position]? = some w ∧
      v.isScalar = true ∧ v.Reported inContext w.toJson := by
  intro t
  obtain ⟨u, inContext, node, found⟩ := Tree.leaf_of_constantPlaces c.schema place
  rw [Tree.leaves_ofExpr] at found
  have mem := (List.mem_filter.1 (List.mem_of_getElem? found)).1
  have constants := congrArg (·[position]?) (document.ofDocument.literals_leaves c.schema false 0)
  rw [List.getElem?_map, found, List.getElem?_map, Expr.ofDocument, Expr.literals_map,
    List.getElem?_map] at constants
  obtain ⟨v, constant, rfl⟩ : ∃ v, document.literals[position]? = some v ∧ Value.ofJson v = u := by
    simpa [Leaf.literal?] using constants.symm
  have values := congrArg (·[position]?) (c.map_some_parameters_of_sound sound)
  rw [List.getElem?_map, List.getElem?_map, Tree.leaves_ofExpr, found] at values
  obtain ⟨w, value, bound⟩ := Option.map_eq_some_iff.1 values
  obtain ⟨scalar, reported⟩ := reported_of_bound? bound.symm
  have scope := Context.scope_of_leaf c.schema mem
  exact ⟨v, w, inContext, constant, node, scope, value, scalar, reported⟩

end

/-- **A report shows the constants of the text it was made from.** If a text is parsed as an
expression and no part of it fails, its constants are scalars, and the report has one entry for
each of them in the order of the text: the constant itself or, in document context, a text that
denotes it. -/
theorem report_constants (c : Compiler) {source : String} {document : Expr Json}
    (parsed : Expr.parse source = .ok document)
    (sound : (c.compile (Tree.ofExpr document.ofDocument)).errors = []) :
    let t := Tree.ofExpr document.ofDocument
    (∃ j, Json.parse source = .ok j ∧ document.Renders j) ∧
    (∀ v ∈ document.literals, v.isScalar = true) ∧
    ∃ entries, (c.compile t).report.get? "parameters" = some (.arr entries) ∧
      entries.length = document.literals.length ∧
      t.constantPlaces.length = document.literals.length ∧
      ∀ position id : Nat, t.constantPlaces[position]? = some id →
        ∃ v entry inContext, document.literals[position]? = some v ∧
          t.node? id = some (.literal (.ofJson v)) ∧
          (Context.scope t (Context.mark t c.schema t.root))[id]? = some inContext ∧
          entries[position]? = some entry ∧ v.Reported inContext entry := by
  intro t
  have literals : document.ofDocument.literals = document.literals.map Value.ofJson :=
    Expr.literals_map _ document
  have places : t.constantPlaces.length = document.literals.length := by
    rw [length_constantPlaces c.schema, literals, List.length_map]
  refine ⟨Expr.document_of_parse parsed, fun v mem => ?_, _, rfl, ?_, places, ?_⟩
  · obtain ⟨position, inside, rfl⟩ := List.getElem_of_mem mem
    have place := List.getElem?_eq_getElem (places ▸ inside)
    obtain ⟨v, -, -, constant, -, -, -, scalar, -⟩ := c.shown_at_place sound place
    rw [List.getElem?_eq_getElem inside] at constant
    cases constant
    exact scalar
  · have values := congrArg List.length (c.map_some_parameters_of_sound sound)
    rw [List.length_map, List.length_map] at values
    rw [List.length_map, values, ← places, Tree.constantPlaces_eq c.schema, List.length_map]
  · intro position id place
    obtain ⟨v, w, inContext, constant, node, scope, value, -, reported⟩ :=
      c.shown_at_place sound place
    refine ⟨v, w.toJson, inContext, constant, node, scope, ?_, reported⟩
    rw [List.getElem?_map, value, Option.map_some]

/-- The greatest integer and a text with escapes inside a document, and minus zero outside. -/
theorem report_constants_in_context :
    let most : Json := .num (.int 0xffffffffffffffff (by decide))
    let minusZero : Json := .num (.float ⟨0x8000000000000000⟩ (by decide))
    let document : Expr Json := .binary .and
      (.binary .equals (.binary .equals (.field "title") (.literal most)) (.literal (.str "4\"\n")))
      (.binary .equals (.field "ID") (.literal minusZero))
    let source : String := "\x7b\"and\":[\x7b\"equals\":[\x7b\"equals\":[\x7b\"field\":" ++
      "\"title\"\x7d,\x7b\"literal\":18446744073709551615\x7d]\x7d,\x7b\"literal\":" ++
      "\"4\\\"\\u000a\"\x7d]\x7d,\x7b\"equals\":[\x7b\"field\":\"ID\"\x7d,\x7b\"literal\":" ++
      "-0.0\x7d]\x7d]\x7d"
    let f := default.compile (Tree.ofExpr document.ofDocument)
    Expr.parse source = .ok document ∧ f.errors = [] ∧
      ∃ first second, f.report.get? "parameters" =
          some (.arr [.str first, .str second, minusZero]) ∧
        Json.parse first = .ok most ∧ Json.parse second = .ok (.str "4\"\n") := by
  intro most minusZero document source f
  have parsed : Expr.parse source = .ok document := by
    let j : Json := .obj [("and", .arr
      [.obj [("equals", .arr [.obj [("equals", .arr
          [.obj [("field", .str "title")], .obj [("literal", most)]])],
        .obj [("literal", .str "4\"\n")]])],
      .obj [("equals", .arr [.obj [("field", .str "ID")], .obj [("literal", minusZero)]])]])]
    have tokens : Json.tokens source.toList = j.spelling := by decide +kernel
    rw [Expr.parse, Json.readAll, tokens]
    rfl
  have sound : f.errors = [] := by
    have compiles : (document.ofDocument.sql? default false 0).isSome = true := by decide +kernel
    rw [show f = _ from compile_ofExpr default document.ofDocument]
    exact (Expr.sql?_isSome_iff default false 0 0 _).1 compiles
  have places : (Tree.ofExpr document.ofDocument).constantPlaces = [1, 3, 6] := by decide +kernel
  have leaves : document.ofDocument.leaves default.schema false 0 =
      [⟨0, true, .field "title"⟩, ⟨1, true, .literal (.ofJson most)⟩,
        ⟨3, true, .literal (.string "4\"\n")⟩, ⟨5, false, .field "ID"⟩,
        ⟨6, false, .literal (.ofJson minusZero)⟩] := rfl
  obtain ⟨-, -, entries, listed, length, -, each⟩ := report_constants default parsed sound
  have entry (position : Nat) (v : Json) {leaf : Leaf}
      (is_leaf : leaf ∈ document.ofDocument.leaves default.schema false 0)
      (place : [1, 3, 6][position]? = some leaf.place)
      (constant : document.literals[position]? = some v) :
      ∃ shown, entries[position]? = some shown ∧ v.Reported leaf.inContext shown := by
    obtain ⟨w, shown, inContext, constant', -, scope, is_entry, reported⟩ :=
      each position leaf.place (places ▸ place)
    cases constant.symm.trans constant'
    cases (Context.scope_of_leaf default.schema is_leaf).symm.trans scope
    exact ⟨shown, is_entry, reported⟩
  rw [leaves] at entry
  obtain ⟨a, b, d, rfl⟩ := List.length_eq_three.1 length
  obtain ⟨_, is_first, reported⟩ := entry 0 most (.tail _ (.head _)) rfl rfl
  obtain ⟨first, rfl, is_most⟩ := reported.text_of rfl
  obtain ⟨_, is_second, reported⟩ := entry 1 (.str "4\"\n") (.tail _ (.tail _ (.head _))) rfl rfl
  obtain ⟨second, rfl, is_text⟩ := reported.text_of rfl
  obtain ⟨_, is_third, reported⟩ :=
    entry 2 minusZero (.tail _ (.tail _ (.tail _ (.tail _ (.head _))))) rfl rfl
  cases is_first
  cases is_second
  cases is_third
  exact ⟨parsed, sound, first, second, reported.itself_of ▸ listed, is_most, is_text⟩

end Compiler

end RowFilter
