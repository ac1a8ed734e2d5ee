import RowFilter.Expr.Document
import RowFilter.Proofs.Json.Printing

/-! An expression has one document but for its parameters, which may be written as a bare name or
with `null` beside it. However the document is spelled, with any blanks between its tokens and any
escapes in its strings, it is read as the expression it was written for. -/

namespace RowFilter.Expr

open Json (Reads Alternative Alternatives)

/-- The documents of an expression. -/
inductive Renders : Expr Json → Json → Prop
  | field (name : String) : Renders (.field name) (.obj [("field", .str name)])
  | literal (v : Json) : Renders (.literal v) (.obj [("literal", v)])
  /-- A parameter by its bare name. -/
  | parameter : Renders .parameter (.str "parameter")
  /-- A parameter with nothing beside its name. -/
  | emptyParameter : Renders .parameter (.obj [("parameter", .null)])
  | binary (op : BinaryOp) {l r : Expr Json} {x y : Json} (left : Renders l x)
      (right : Renders r y) : Renders (.binary op l r) (.obj [(op.name, .arr [x, y])])

/-- A brace allows one bracket less inside. -/
theorem read_succ (depth : Nat) :
    read (depth + 1) = Json.tagged
      (forms depth (match depth with | 0 => none | n + 1 => some (read n))) true := by
  cases depth <;> rfl

theorem read_zero : read 0 = Json.tagged (forms 0 none) false := rfl

theorem depth_member (tag : String) (content : Json) :
    (Json.obj [(tag, content)]).depth = content.depth + 1 := by
  simp [Json.depth, Json.depthMembers]

theorem depth_pair (x y : Json) : (Json.arr [x, y]).depth = max x.depth y.depth + 1 := by
  simp [Json.depth, Json.depthItems]

section
variable {e : Expr Json} {j : Json} (renders : e.Renders j)
include renders

/-- **The tokens of a document are read as its expression**, if its brackets nest no deeper than
may be. -/
theorem reads_read (ordered : ∀ v ∈ e.literals, v.Ordered) {depth : Nat}
    (shallow : j.depth ≤ depth) : Reads (read depth) j.spelling e := by
  induction renders generalizing depth with
  | field name =>
    rw [depth_member] at shallow
    obtain ⟨depth, rfl⟩ : ∃ n, depth = n + 1 := ⟨depth - 1, by omega⟩
    rw [read_succ]
    have content : Reads (Json.string "a string") (Json.str name).spelling name := fun _ => rfl
    exact Json.reads_tagged rfl (Json.reads_holding content Expr.field)
  | literal v =>
    rw [depth_member] at shallow
    obtain ⟨depth, rfl⟩ : ∃ n, depth = n + 1 := ⟨depth - 1, by omega⟩
    rw [read_succ]
    have content : Reads (Json.value depth) v.spelling v :=
      Json.reads_value (ordered v (List.mem_singleton_self v)) (by omega)
    exact Json.reads_tagged rfl (Json.reads_holding content Expr.literal)
  | parameter =>
    cases depth with
    | zero => exact Json.reads_bare rfl rfl false
    | succ depth =>
      rw [read_succ]
      exact Json.reads_bare rfl rfl true
  | emptyParameter =>
    rw [depth_member] at shallow
    obtain ⟨depth, rfl⟩ : ∃ n, depth = n + 1 := ⟨depth - 1, by omega⟩
    rw [read_succ]
    exact Json.reads_tagged rfl (Json.reads_plain _)
  | binary op left right hl hr =>
    rw [depth_member, depth_pair] at shallow
    obtain ⟨depth, rfl⟩ : ∃ n, depth = n + 2 := ⟨depth - 2, by omega⟩
    obtain ⟨ordered_left, ordered_right⟩ := List.forall_mem_append.1 ordered
    have first := hl ordered_left (show _ ≤ depth by omega)
    have second := hr ordered_right (show _ ≤ depth by omega)
    rw [read_succ]
    cases op <;> exact Json.reads_tagged rfl (Json.reads_pairing first second _ _)

theorem holdsFloat_of_renders (whole : ∀ v ∈ e.literals, v.holdsFloat = false) :
    j.holdsFloat = false := by
  induction renders with
  | literal v =>
    simpa [Json.holdsFloat, Json.holdsFloatMembers] using whole v (List.mem_singleton_self v)
  | binary op left right hl hr =>
    obtain ⟨whole_left, whole_right⟩ := List.forall_mem_append.1 whole
    simp [Json.holdsFloat, Json.holdsFloatMembers, Json.holdsFloatItems, hl whole_left,
      hr whole_right]
  | _ => rfl

/-- **A document is read back, however it is spelled.** Every text that spells a document of an
expression, with any blanks between its tokens, is parsed as that expression, unless one of its
constants holds a fraction or more than 127 brackets are open at once. What is compiled has the same
operators, operands and fields, and each constant as the value it stands for. -/
theorem parse_of_rendering (ordered : ∀ v ∈ e.literals, v.Ordered)
    (whole : ∀ v ∈ e.literals, v.holdsFloat = false) (shallow : j.depth ≤ 127) {source : String}
    (written : Json.Written j.spelling source.toList) :
    parse source = .ok e ∧
      e.ofDocument.map (fun _ => ()) = e.map (fun _ => ()) ∧
      e.ofDocument.literals = e.literals.map Value.ofJson := by
  refine ⟨?_, map_map _ _ e, literals_map _ e⟩
  have reads : Reads (read Json.depthLimit) j.spelling e := reads_read renders ordered shallow
  have legible := Json.legible_spelling (holdsFloat_of_renders renders whole)
  exact Json.readAll_of_written reads legible written

end

/-- An object with the least integer and escapes in it, and a parameter with nothing beside its
name, over lines. -/
theorem parse_of_rendering_over_lines :
    let least : Json := .num (.int (-0x8000000000000000) (by decide))
    let v : Json := .obj [("k", .arr [least, .str "a\n\"\x01"]), ("\u03bb", .null)]
    let e : Expr Json := .binary .or (.literal v) .parameter
    let source : String := "\x7b\n  \"or\": [\n    \x7b\n      \"literal\": \x7b\n" ++
      "        \"k\": [\n          -9223372036854775808,\n          \"a\\n\\\"\\u0001\"\n" ++
      "        ],\n        \"\u03bb\": null\n      \x7d\n    \x7d,\n" ++
      "    \x7b\n      \"parameter\": null\n    \x7d\n  ]\n\x7d"
    (∀ w ∈ e.literals, w.Ordered) ∧ parse source = .ok e ∧
      e.ofDocument.literals = [.json v] := by
  intro least v e source
  let j : Json := .obj [("or", .arr [.obj [("literal", v)], .obj [("parameter", .null)]])]
  have renders : e.Renders j := .binary .or (.literal v) .emptyParameter
  have lines : source = j.prettyText := by decide +kernel
  have written : Json.Written j.spelling source.toList := by
    rw [lines, Json.prettyText, String.toList_ofList]
    exact Json.written_pretty j
  have ordered : ∀ w ∈ e.literals, w.Ordered := by
    intro w mem
    obtain rfl : w = v := by simpa [e, literals] using mem
    have names : "k" < "\u03bb" := by decide
    exact ⟨List.pairwise_pair.2 names, ⟨trivial, trivial, trivial⟩, trivial, trivial⟩
  obtain ⟨parsed, -, values⟩ := parse_of_rendering renders ordered (by decide) (by decide) written
  exact ⟨ordered, parsed, values⟩

end RowFilter.Expr
