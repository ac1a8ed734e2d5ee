import RowFilter.Proofs.Compile.Binding

namespace RowFilter

/-- The leaf at a place fails for a cause. -/
inductive Compiler.Fails (c : Compiler) (t : Tree) (id : NodeId) : CompileError.Cause → Prop
  | parameter (node : t.node? id = some .parameter) : Fails c t id .unsupportedExpression
  | quote {name : String} (node : t.node? id = some (.field name))
      (document : c.schema.isDocumentField name = true) (quote : '\'' ∈ name.toList) :
      Fails c t id (.unsafeFieldName name)
  | sign {name : String} (node : t.node? id = some (.field name))
      (document : c.schema.isDocumentField name = true) (quote : '\'' ∉ name.toList)
      (anonymous : c.dialect.isAnonymous = true) (sign : '?' ∈ name.toList) :
      Fails c t id (.placeholderInFieldName name)
  | kind {v : Value} (node : t.node? id = some (.literal v)) (kind : v.isPrimitive = false) :
      Fails c t id (.unsupportedLiteral v)
  | number {x : Binary64} (node : t.node? id = some (.literal (.float x)))
      (number : x.isFinite = false)
      (marked : ∃ ancestor ∈ t.ancestors id,
        (Context.mark t c.schema t.root).isMarked ancestor Context.key = true) :
      Fails c t id (.unsupportedLiteral (.float x))

namespace Emission

theorem fieldFault?_eq_some_iff {d : Dialect} {name : String} {cause : CompileError.Cause} :
    fieldFault? d name = some cause ↔
      ('\'' ∈ name.toList ∧ cause = .unsafeFieldName name) ∨
      ('\'' ∉ name.toList ∧ d.isAnonymous = true ∧ '?' ∈ name.toList ∧
        cause = .placeholderInFieldName name) := by
  simp only [fieldFault?, Bool.and_eq_true, List.contains_iff_mem]
  by_cases quote : '\'' ∈ name.toList
  · simp only [quote, if_true, Option.some.injEq, true_and, not_true_eq_false, false_and, or_false]
    exact eq_comm
  · by_cases anonymous : d.isAnonymous = true
    · by_cases sign : '?' ∈ name.toList
      · simp only [quote, anonymous, sign, and_self, if_true, if_false, Option.some.injEq,
          not_false_eq_true, true_and, false_and, false_or]
        exact eq_comm
      · simp [quote, sign]
    · simp [quote, anonymous]

end Emission

theorem Leaf.fault?_field {c : Compiler} {place : NodeId} {inContext : Bool} {name : String}
    {cause : CompileError.Cause} :
    (⟨place, inContext, .field name⟩ : Leaf).fault? c = some cause ↔
      c.schema.isDocumentField name = true ∧
        Emission.fieldFault? c.dialect name = some cause := by
  rw [← Compiler.fieldClause_error_iff]
  simp only [fault?]
  cases c.fieldClause name <;> simp

/-- A constant fails if it is of no kind that can be compared with, or in document context and no
number that a document can hold. -/
theorem Leaf.fault?_literal {c : Compiler} {place : NodeId} {inContext : Bool} {v : Value}
    {cause : CompileError.Cause} :
    (⟨place, inContext, .literal v⟩ : Leaf).fault? c = some cause ↔
      (v.isPrimitive = false ∨ (inContext = true ∧ v.isNonFinite = true)) ∧
        .unsupportedLiteral v = cause := by
  have unsupported : (⟨place, inContext, .literal v⟩ : Leaf).isSupported = false ↔
      v.isPrimitive = false ∨ (inContext = true ∧ v.isNonFinite = true) := by
    simp only [isSupported]
    cases v.isPrimitive <;> simp
  have own := bound?_eq ⟨place, inContext, .literal v⟩
  simp only [bound?] at own
  rw [← unsupported]
  simp only [fault?, own]
  cases supported : (⟨place, inContext, .literal v⟩ : Leaf).isSupported with
  | false => simp
  | true => simp [asBound?_isSome supported]

/-- **A leaf fails exactly if an error is recorded for it.** -/
theorem Compiler.fails_iff {c : Compiler} {t : Tree} {id : NodeId} {cause : CompileError.Cause} :
    c.Fails t id cause ↔ ∃ leaf, t.leaf? c.schema id = some leaf ∧ leaf.fault? c = some cause := by
  have marked : Context.covers c.schema t id = true ↔ ∃ ancestor ∈ t.ancestors id,
      (Context.mark t c.schema t.root).isMarked ancestor Context.key = true := List.any_eq_true
  constructor
  · intro fails
    cases fails with
    | parameter node => exact ⟨_, Tree.leaf?_of_node node, rfl⟩
    | @quote name node document quote =>
      have fault : Emission.fieldFault? c.dialect name = some (.unsafeFieldName name) :=
        Emission.fieldFault?_eq_some_iff.2 (.inl ⟨quote, rfl⟩)
      exact ⟨_, Tree.leaf?_of_node node, Leaf.fault?_field.2 ⟨document, fault⟩⟩
    | @sign name node document quote anonymous sign =>
      have fault : Emission.fieldFault? c.dialect name = some (.placeholderInFieldName name) :=
        Emission.fieldFault?_eq_some_iff.2 (.inr ⟨quote, anonymous, sign, rfl⟩)
      exact ⟨_, Tree.leaf?_of_node node, Leaf.fault?_field.2 ⟨document, fault⟩⟩
    | kind node kind =>
      exact ⟨_, Tree.leaf?_of_node node, Leaf.fault?_literal.2 ⟨.inl kind, rfl⟩⟩
    | @number x node number below =>
      have nonFinite : (Value.float x).isNonFinite = true := by rw [Value.isNonFinite, number]; rfl
      exact ⟨_, Tree.leaf?_of_node node,
        Leaf.fault?_literal.2 ⟨.inr ⟨marked.2 below, nonFinite⟩, rfl⟩⟩
  · rintro ⟨leaf, found, fault⟩
    obtain ⟨node, atom, inside, held, rfl⟩ := Tree.leaf?_eq_some_iff.1 found
    cases node with
    | field name =>
      obtain rfl := Option.some.inj held
      obtain ⟨document, fault⟩ := Leaf.fault?_field.1 fault
      rcases Emission.fieldFault?_eq_some_iff.1 fault with
        ⟨quote, rfl⟩ | ⟨quote, anonymous, sign, rfl⟩
      · exact .quote inside document quote
      · exact .sign inside document quote anonymous sign
    | parameter =>
      obtain rfl := Option.some.inj held
      obtain rfl := Option.some.inj fault
      exact .parameter inside
    | literal v =>
      obtain rfl := Option.some.inj held
      obtain ⟨kind | ⟨covered, nonFinite⟩, rfl⟩ := Leaf.fault?_literal.1 fault
      · exact .kind inside kind
      · cases v with
        | float x =>
          have number : x.isFinite = false := by simpa [Value.isNonFinite] using nonFinite
          exact .number inside number (marked.1 covered)
        | _ => cases nonFinite
    | binary op l r => cases held

/-! ## Reports -/

/-- A filter reports these failures and no others. -/
structure Filter.Reports (f : Filter) (fails : NodeId → CompileError.Cause → Prop) : Prop where
  /-- There is an error for every failure, and for nothing else. -/
  errors : ∀ err, err ∈ f.errors ↔ fails err.node err.cause
  /-- Errors stand in the order of their nodes, and no node has two. -/
  ordered : f.errors.Pairwise fun first second => first.node < second.node
  /-- An unsupported constant is named by its text and its kind. -/
  named : ∀ err ∈ f.errors, ∀ v, err.cause = .unsupportedLiteral v →
    err.message = "Unknown value type of " ++ v.text ++ ": " ++ v.kind
  clause : f.clause.isSome = true ↔ f.errors = []
  valid : f.isValid = true ↔ ¬∃ id cause, fails id cause
  ok : (∃ clause, f.clause = some clause ∧ f.result = .ok (clause, f.parameters)) ↔
    ¬∃ id cause, fails id cause
  error : f.result = .error f.errors ↔ ∃ id cause, fails id cause
  /-- No failure goes without an error. -/
  explained : f.result ≠ .error []

theorem Filter.reports_of {f : Filter} {fails : NodeId → CompileError.Cause → Prop}
    (errors : ∀ err, err ∈ f.errors ↔ fails err.node err.cause)
    (ordered : f.errors.Pairwise fun first second => first.node < second.node)
    (clause : f.clause.isSome = true ↔ f.errors = []) : f.Reports fails := by
  have failure : (∃ id cause, fails id cause) ↔ f.errors ≠ [] := by
    constructor
    · rintro ⟨id, cause, failing⟩
      exact List.ne_nil_of_mem ((errors ⟨id, cause⟩).2 failing)
    · intro some
      obtain ⟨err, mem⟩ := List.exists_mem_of_ne_nil _ some
      exact ⟨err.node, err.cause, (errors err).1 mem⟩
  have named : ∀ err ∈ f.errors, ∀ v, err.cause = .unsupportedLiteral v →
      err.message = "Unknown value type of " ++ v.text ++ ": " ++ v.kind := by
    intro err _ v cause
    rw [CompileError.message, cause]
  obtain ⟨clause?, parameters, errs⟩ := f
  cases clause? with
  | none =>
    have failed : errs ≠ [] := fun none => absurd (clause.2 none) (by simp)
    have rejected : Filter.result ⟨none, parameters, errs⟩ = .error errs := rfl
    refine ⟨errors, ordered, named, clause, ?_, ?_, ?_, ?_⟩
    · simp [failure, failed, isValid]
    · simp [failure, failed]
    · simp [failure, failed, rejected]
    · simpa [rejected] using failed
  | some text =>
    obtain rfl : errs = [] := clause.1 rfl
    have accepted : Filter.result ⟨some text, parameters, []⟩ = .ok (text, parameters) := rfl
    refine ⟨errors, ordered, named, clause, ?_, ?_, ?_, ?_⟩
    · simp [failure, isValid]
    · simp [failure, accepted]
    · simp [failure, accepted]
    · simp [accepted]

/-- **A compiled filter reports the leaves that fail.** -/
theorem Compiler.compile_reports (c : Compiler) (e : Expr Value) :
    (c.compile (Tree.ofExpr e)).Reports (c.Fails (Tree.ofExpr e)) := by
  have errors : (c.compile (Tree.ofExpr e)).errors =
      ((Tree.ofExpr e).leaves c.schema).filterMap (Leaf.error? c) := by
    rw [compile_ofExpr, Tree.leaves_ofExpr]
    rfl
  refine Filter.reports_of (fun err => ?_) ?_ ?_
  · rw [errors, fails_iff, List.mem_filterMap]
    constructor
    · rintro ⟨leaf, mem, failed⟩
      obtain ⟨cause, fault, rfl⟩ := Option.map_eq_some_iff.1 failed
      exact ⟨leaf, Tree.mem_leaves.1 mem, fault⟩
    · rintro ⟨leaf, found, fault⟩
      have place := Tree.place_of_leaf? found
      refine ⟨leaf, Tree.mem_leaves.2 (place ▸ found), ?_⟩
      rw [Leaf.error?, fault, Option.map_some, place]
  · rw [errors]
    refine (Tree.pairwise_leaves c.schema (Tree.ofExpr e)).filterMap _ ?_
    intro first second lt err failed err' failed'
    obtain ⟨cause, -, rfl⟩ := Option.map_eq_some_iff.1 failed
    obtain ⟨cause', -, rfl⟩ := Option.map_eq_some_iff.1 failed'
    exact lt
  · rw [compile_ofExpr, Option.isSome_map]
    exact Expr.sql?_isSome_iff c false 0 0 e

end RowFilter
