import RowFilter.Compile.Emission

/-! What a filter has to be, said on the expression itself: one walk from left to right, which
carries down whether it is in document context and, from node to node, what has been bound and what
has failed so far. -/

namespace RowFilter

/-- Fields of the document are marked, and marks go up through equalities only. -/
def Expr.isMarked (s : Schema) : Expr Value → Bool
  | .field name => s.isDocumentField name
  | .binary .equals l r => l.isMarked s || r.isMarked s
  | _ => false

/-- How far a walk has come. -/
structure Progress where
  /-- The number of nodes passed, which is the place of the next one. -/
  next : NodeId
  parameters : List Value
  errors : List CompileError

namespace Progress

def start : Progress := ⟨0, [], []⟩

def pass (p : Progress) : Progress := { p with next := p.next + 1 }

def fail (p : Progress) (cause : CompileError.Cause) : Progress :=
  { p.pass with errors := p.errors ++ [⟨p.next, cause⟩] }

def bind (p : Progress) (v : Value) : Progress :=
  { p.pass with parameters := p.parameters ++ [v] }

end Progress

namespace Compiler

/-- The text of an operator around two texts. -/
def template (c : Compiler) (op : BinaryOp) (l r : List Char) : List Char :=
  let config := c.schema.textSearchConfig.toList
  match op with
  | .and => '(' :: l ++ " and ".toList ++ r ++ [')']
  | .or => '(' :: l ++ " or ".toList ++ r ++ [')']
  | .equals => '(' :: l ++ " = ".toList ++ r ++ [')']
  | .textMatch => "(to_tsvector('".toList ++ config ++ "', ".toList ++ l ++
      ") @@ to_tsquery('".toList ++ config ++ "', ".toList ++ r ++ "))".toList

/-- The text of a field; one of the document may hold neither a quote nor, where placeholders are
anonymous, a question mark. -/
def fieldText (c : Compiler) (name : String) : Except CompileError.Cause (List Char) :=
  if !c.schema.isDocumentField name then .ok name.toList
  else if '\'' ∈ name.toList then .error (.unsafeFieldName name)
  else if c.dialect = .questionMark ∧ '?' ∈ name.toList then .error (.placeholderInFieldName name)
  else .ok (c.schema.documentColumn.toList ++ "->'".toList ++ name.toList ++ ['\''])

/-- What is bound for a constant: in document context the text of a JSON scalar. -/
def bound? (inContext : Bool) (v : Value) : Option Value :=
  if !v.isPrimitive then none
  else if inContext then v.documentText?.map .string
  else some v

def reference (c : Compiler) (inContext : Bool) (p : Progress) : List Char :=
  c.dialect.placeholder p.parameters.length ++ if inContext then "::jsonb".toList else []

/-- The text of an expression, unless some part of it fails, and the progress after it. -/
def compileWithin (c : Compiler) (inContext : Bool) : Expr Value → Progress →
    Option (List Char) × Progress
  | .field name, p =>
    match c.fieldText name with
    | .ok text => (some text, p.pass)
    | .error cause => (none, p.fail cause)
  | .parameter, p => (none, p.fail .unsupportedExpression)
  | .literal v, p =>
    match bound? inContext v with
    | some w => (some (c.reference inContext p), p.bind w)
    | none => (none, p.fail (.unsupportedLiteral v))
  | .binary op l r, p =>
    let inner := inContext || (Expr.binary op l r).isMarked c.schema
    let (left, p) := c.compileWithin inner l p
    let (right, p) := c.compileWithin inner r p
    (left.bind fun l => right.map fun r => c.template op l r, p.pass)

def compileExpr (c : Compiler) (e : Expr Value) : Filter :=
  let (text, p) := c.compileWithin false e .start
  ⟨text.map String.ofList, p.parameters, p.errors⟩

example : (default.compileExpr (.binary .equals (.field "title") (.literal (.string "x")))).clause =
    some "(Fields->'title' = ?::jsonb)" := by decide +kernel

end Compiler

end RowFilter
