import RowFilter.Compile.Bindings
import RowFilter.Compile.Context
import RowFilter.Compile.Filter
import RowFilter.Sql.Basic

/-!
# Compiling

The nodes of a tree are compiled in the order of their places. The clause of a
node waits in a table until its parent takes it; a node that fails, or above one
that fails, leaves its place empty.

* `Emission.visitor`: what each form of node comes to;
* `Compiler.compile`: a tree to a filter;
* `Compiler.ofSchema`: only a schema with valid names makes a compiler.
-/

namespace RowFilter

/-- What a compilation has come to so far. -/
structure Emission where
  bindings : Bindings
  errors : Array CompileError
  /-- The clauses of the nodes done so far, as long as their parents have not taken them. -/
  clauses : Array (Option Sql)

namespace Emission

/-- What compiling one node does. -/
abbrev Action : Type := Emission → Option Sql × Emission

def empty : Emission := ⟨.empty, #[], #[]⟩

/-- Takes the clause of a node out of the table. -/
def take (e : Emission) (id : NodeId) : Option Sql × Emission :=
  match e with
  | ⟨bindings, errors, clauses⟩ =>
    ((clauses[id]?).join, ⟨bindings, errors, clauses.setIfInBounds id none⟩)

def fail (id : NodeId) (cause : CompileError.Cause) : Action := fun ⟨bindings, errors, clauses⟩ =>
  (none, ⟨bindings, errors.push ⟨id, cause⟩, clauses⟩)

def bind (v : Value) (asDocument : Bool) : Action := fun ⟨bindings, errors, clauses⟩ =>
  let position := bindings.count
  (some (.placeholder position asDocument), ⟨bindings.add v, errors, clauses⟩)

/-- Joins the clauses of two children, if both are there. -/
def join (make : Sql → Sql → Sql) (left right : NodeId) : Action := fun e =>
  let (l, e) := e.take left
  let (r, e) := e.take right
  (l.bind fun l => r.map fun r => make l r, e)

/-- Why the name of a document field cannot stand between quotes. -/
def fieldFault? (d : Dialect) (name : String) : Option CompileError.Cause :=
  if name.toList.contains '\'' then some (.unsafeFieldName name)
  else if d.isAnonymous && name.toList.contains '?' then some (.placeholderInFieldName name)
  else none

def field (s : Schema) (d : Dialect) (id : NodeId) (name : String) : Action :=
  if s.isDocumentField name then
    match fieldFault? d name with
    | some cause => fail id cause
    | none => fun e => (some (.documentField s.documentColumn name), e)
  else fun e => (some (.column name), e)

/-- In document context a constant is bound as the text of a JSON scalar. -/
def literal (asDocument : Bool) (id : NodeId) (v : Value) : Action :=
  if !v.isPrimitive then fail id (.unsupportedLiteral v)
  else if !asDocument then bind v false
  else
    match v.documentText? with
    | some text => bind (.string text) true
    | none => fail id (.unsupportedLiteral v)

/-- What each form of node comes to. -/
def visitor (s : Schema) (d : Dialect) (scope : Array Bool) : Visitor Action where
  field := field s d
  parameter := fun id => fail id .unsupportedExpression
  literal := fun id v => literal ((scope[id]?).getD false) id v
  and := fun _ => join (.infixed "and")
  or := fun _ => join (.infixed "or")
  equals := fun _ => join (.infixed "=")
  textMatch := fun _ => join (.textSearch s.textSearchConfig)

/-- Compiles one node and lets its clause wait for its parent. -/
def step (t : Tree) (v : Visitor Action) (e : Emission) (id : NodeId) : Emission :=
  match t.accept v id with
  | some action =>
    match action e with
    | (clause, ⟨bindings, errors, clauses⟩) => ⟨bindings, errors, clauses.push clause⟩
  | none => e

/-- The filter, its clause being that of the root. -/
def finish (e : Emission) (d : Dialect) (root : NodeId) : Filter :=
  let (clause, e) := e.take root
  ⟨clause.map (Sql.text d), e.bindings.toList, e.errors.toList⟩

end Emission

/-- A schema with valid names, and a dialect. -/
structure Compiler where
  schema : Schema
  valid : schema.Valid
  dialect : Dialect

namespace Compiler

def default : Compiler := ⟨.default, Schema.default_valid, .questionMark⟩

/-- The compiler for a schema, unless one of its names is no identifier. -/
def ofSchema (s : Schema) (d : Dialect) : Except (Schema.Setting × String) Compiler :=
  match h : s.firstInvalid? with
  | some fault => .error fault
  | none => .ok ⟨s, h, d⟩

theorem ofSchema_of_valid {s : Schema} (valid : s.Valid) (d : Dialect) :
    ofSchema s d = .ok ⟨s, valid, d⟩ := by
  unfold ofSchema
  split
  · next fault found =>
    rw [valid] at found
    cases found
  · rfl

def compile (c : Compiler) (t : Tree) : Filter :=
  let scope := Context.scope t (Context.mark t c.schema t.root)
  let visitor := Emission.visitor c.schema c.dialect scope
  (t.nodes.foldl (Emission.step t visitor) .empty).finish c.dialect t.root

end Compiler

end RowFilter
