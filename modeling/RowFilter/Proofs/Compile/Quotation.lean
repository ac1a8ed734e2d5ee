import RowFilter.Proofs.Compile.Emission
import RowFilter.Proofs.Sql.Quotes

/-!
# What a clause quotes

The names that go into a clause have been checked on the way: those of the
schema are identifiers, and a field of the document whose name would end its
quotes fails.

* `Expr.safe_of_sql?`: the fragments of a compiled clause are safe;
* `Expr.names_of_sql?`: the names that are quoted in it;
* `Compiler.quotes_of_clause`: what its text holds between quotes and outside.
-/

namespace RowFilter

/-- The names of an expression that go between quotes, from left to right: its fields of the
document, and the configuration of a text search in front of each of its operands. -/
def Expr.quotedNames (s : Schema) : Expr Value → List String
  | .field name => if s.isDocumentField name then [name] else []
  | .binary .textMatch l r =>
    s.textSearchConfig :: (l.quotedNames s ++ s.textSearchConfig :: r.quotedNames s)
  | .binary _ l r => l.quotedNames s ++ r.quotedNames s
  | _ => []

namespace Fragment

theorem Safe.of_identifier {d : Dialect} {name : String} (h : Schema.isIdentifier name = true) :
    (plain name.toList).Safe d ∧ (quoted name).Safe d := by
  have own := (Schema.isIdentifier_iff.1 h).2
  refine ⟨⟨fun ch mem => ?_, .of_not_mem fun dash => ?_⟩, fun quote => ?_, fun _ mark => ?_⟩
  · have own := own ch mem
    simp only [Schema.isIdentifierChar, Bool.or_eq_true, beq_iff_eq] at own
    rcases own with own | rfl
    · simp [Sql.isPlain, own]
    · decide
  · exact absurd (own _ dash) (by decide)
  · exact absurd (own _ quote) (by decide)
  · exact absurd (own _ mark) (by decide)

theorem Safe.append {d : Dialect} {x y : List Char} (left : (plain x).Safe d)
    (right : (plain y).Safe d) : (plain (x ++ y)).Safe d :=
  ⟨List.forall_mem_append.2 ⟨left.1, right.1⟩, left.2.append right.2⟩

theorem Safe.of_plain {d : Dialect} {text : List Char} (allowed : text.all Sql.isPlain = true)
    (dash : '-' ∉ text) : (plain text).Safe d :=
  ⟨List.all_eq_true.1 allowed, .of_not_mem dash⟩

theorem Safe.arrow {d : Dialect} : (plain ['-', '>']).Safe d := by
  refine ⟨List.all_eq_true.1 (by decide), fun i dash => ?_⟩
  match i with
  | 0 => rfl
  | 1 => simp at dash
  | i + 2 => simp at dash

theorem Safe.of_unfaulted {d : Dialect} {name : String}
    (h : Emission.fieldFault? d name = none) : (quoted name).Safe d := by
  simp only [Emission.fieldFault?, List.contains_iff_mem] at h
  split at h
  · cases h
  · rename_i quote
    split at h
    · cases h
    · rename_i mark
      exact ⟨quote, fun anonymous mem => mark (by simp [anonymous, mem])⟩

end Fragment

namespace Sql

variable {d : Dialect} {x y : Sql}

theorem safe_infixed {word : String}
    (between : (Fragment.plain (' ' :: (word.toList ++ [' ']))).Safe d)
    (left : ∀ f ∈ x.fragments, f.Safe d) (right : ∀ f ∈ y.fragments, f.Safe d) :
    ∀ f ∈ (infixed word x y).fragments, f.Safe d := by
  have opening : (Fragment.plain ['(']).Safe d := .of_plain (by decide) (by decide)
  have closing : (Fragment.plain [')']).Safe d := .of_plain (by decide) (by decide)
  rw [fragments_infixed]
  simp only [List.forall_mem_cons, List.forall_mem_append]
  exact ⟨opening, left, between, right, closing, List.forall_mem_nil _⟩

theorem safe_textSearch {config : String} (name : (Fragment.quoted config).Safe d)
    (left : ∀ f ∈ x.fragments, f.Safe d) (right : ∀ f ∈ y.fragments, f.Safe d) :
    ∀ f ∈ (textSearch config x y).fragments, f.Safe d := by
  have opening : (Fragment.plain searchText).Safe d :=
    .of_plain (by decide +kernel) (by decide +kernel)
  have between : (Fragment.plain searchQuery).Safe d :=
    .of_plain (by decide +kernel) (by decide +kernel)
  have comma : (Fragment.plain [',', ' ']).Safe d := .of_plain (by decide) (by decide)
  have closing : (Fragment.plain [')', ')']).Safe d := .of_plain (by decide) (by decide)
  rw [fragments_textSearch]
  simp only [List.forall_mem_cons, List.forall_mem_append]
  exact ⟨opening, name, comma, left, between, name, comma, right, closing, List.forall_mem_nil _⟩

end Sql

namespace Compiler

variable (c : Compiler)

theorem safe_joined (op : BinaryOp) {x y : Sql}
    (left : ∀ f ∈ x.fragments, f.Safe c.dialect) (right : ∀ f ∈ y.fragments, f.Safe c.dialect) :
    ∀ f ∈ (c.joined op x y).fragments, f.Safe c.dialect := by
  cases op with
  | textMatch =>
    have config := Fragment.Safe.of_identifier (d := c.dialect) (Schema.valid_iff.1 c.valid).2.1
    exact Sql.safe_textSearch config.2 left right
  | _ => exact Sql.safe_infixed (.of_plain (by decide +kernel) (by decide +kernel)) left right

/-- A field that is no attribute of the document is a column of the schema. -/
theorem identifier_of_column {name : String} (column : c.schema.isDocumentField name = false) :
    Schema.isIdentifier name = true := by
  have known : name ∈ c.schema.columns := by
    simpa [Schema.isDocumentField] using column
  exact (Schema.valid_iff.1 c.valid).2.2 name known

/-- A field is a column of the schema, or its name has been checked. -/
theorem safe_fieldClause {name : String} {q : Sql} (h : c.fieldClause name = .ok q) :
    ∀ f ∈ q.fragments, f.Safe c.dialect := by
  rcases fieldClause_ok h with ⟨-, unfaulted, rfl⟩ | ⟨column, rfl⟩
  · have document := (Schema.valid_iff.1 c.valid).1
    rw [Sql.fragments_documentField]
    simp only [List.forall_mem_cons]
    exact ⟨(Fragment.Safe.of_identifier document).1.append .arrow, .of_unfaulted unfaulted,
      List.forall_mem_nil _⟩
  · rw [Sql.fragments_column]
    simp only [List.forall_mem_cons]
    exact ⟨(Fragment.Safe.of_identifier (c.identifier_of_column column)).1, List.forall_mem_nil _⟩

end Compiler

namespace Expr

/-- **The fragments of a compiled clause are safe.** -/
theorem safe_of_sql? (c : Compiler) {e : Expr Value} {inContext : Bool} {bound : Nat} {q : Sql}
    (h : e.sql? c inContext bound = some q) : ∀ f ∈ q.fragments, f.Safe c.dialect := by
  induction e generalizing inContext bound q with
  | field name => exact c.safe_fieldClause (sql?_field h)
  | parameter => cases h
  | literal v =>
    obtain ⟨w, -, rfl⟩ := Option.map_eq_some_iff.1 h
    rw [Sql.fragments_placeholder]
    simp only [List.forall_mem_cons]
    exact ⟨trivial, List.forall_mem_nil _⟩
  | binary op l r hl hr =>
    obtain ⟨x, y, left, right, rfl⟩ := sql?_binary h
    exact c.safe_joined op (hl left) (hr right)

theorem names_of_sql? (c : Compiler) {e : Expr Value} {inContext : Bool} {bound : Nat} {q : Sql}
    (h : e.sql? c inContext bound = some q) :
    q.fragments.filterMap Fragment.name? = e.quotedNames c.schema := by
  induction e generalizing inContext bound q with
  | field name =>
    rcases Compiler.fieldClause_ok (sql?_field h) with ⟨document, -, rfl⟩ | ⟨column, rfl⟩
    · simp [quotedNames, document, List.filterMap_cons, Fragment.name?]
    · simp [quotedNames, column, List.filterMap_cons, Fragment.name?]
  | parameter => cases h
  | literal v =>
    obtain ⟨w, -, rfl⟩ := Option.map_eq_some_iff.1 h
    rfl
  | binary op l r hl hr =>
    obtain ⟨x, y, left, right, rfl⟩ := sql?_binary h
    cases op <;>
      simp [Compiler.joined, quotedNames, List.filterMap_cons, Fragment.name?, hl left, hr right]

end Expr

namespace Compiler

theorem clause_eq_some {c : Compiler} {e : Expr Value} {text : String}
    (h : (c.compile (Tree.ofExpr e)).clause = some text) :
    ∃ q, e.sql? c false 0 = some q ∧
      text.toList = q.fragments.flatMap (Fragment.write c.dialect) := by
  rw [compile_ofExpr] at h
  obtain ⟨q, compiled, rfl⟩ := Option.map_eq_some_iff.1 h
  exact ⟨q, compiled, Sql.toList_text c.dialect q⟩

/-- **A clause quotes the names that it is to quote and nothing else.** No name of a field and no
constant ends its quotes, begins a comment or adds to the text outside. -/
theorem quotes_of_clause (c : Compiler) (e : Expr Value) {text : String}
    (h : (c.compile (Tree.ofExpr e)).clause = some text) :
    Sql.Quotes c.dialect (e.quotedNames c.schema) text.toList := by
  obtain ⟨q, compiled, written⟩ := clause_eq_some h
  rw [written, ← Expr.names_of_sql? c compiled]
  exact Fragment.quotes_of_safe c.dialect q.fragments (Expr.safe_of_sql? c compiled)

theorem quotes_of_search :
    let e : Expr Value := .binary .textMatch (.field "body") (.literal (.string "it's --"))
    let text := "(to_tsvector('english', Fields->'body') @@ to_tsquery('english', ?))"
    (default.compile (Tree.ofExpr e)).clause = some text ∧
      Sql.Quotes .questionMark ["english", "body", "english"] text.toList := by
  intro e text
  have clause : (default.compile (Tree.ofExpr e)).clause = some text := by
    rw [compile_ofExpr]
    decide +kernel
  exact ⟨clause, quotes_of_clause default e clause⟩

end Compiler

end RowFilter
