import RowFilter.Proofs.Expr.Document
import RowFilter.Proofs.Json.Parsed

namespace RowFilter.Expr

open Json (Reader Problem Alternative Alternatives Token)

theorem form_of_find {depth : Nat} {operand : Option (Reader (Expr Json))} {tag : String}
    {kind : Alternative (Expr Json)} (found : (forms depth operand).find tag = .ok kind) :
    (tag = "field" ∧ kind = .holding (Json.string "a string") .field) ∨
    (tag = "literal" ∧ kind = .holding (Json.value depth) .literal) ∨
    (tag = "parameter" ∧ kind = .plain .parameter) ∨
    ∃ op wanted, tag = BinaryOp.name op ∧ kind = .pairing wanted operand (.binary op) := by
  have listed := Json.mem_of_find found
  simp only [forms, List.mem_cons, Prod.mk.injEq, List.not_mem_nil, or_false] at listed
  rcases listed with field | literal | parameter | and | or | equals | textMatch
  · exact .inl field
  · exact .inr (.inl literal)
  · exact .inr (.inr (.inl parameter))
  · exact .inr (.inr (.inr ⟨.and, _, and⟩))
  · exact .inr (.inr (.inr ⟨.or, _, or⟩))
  · exact .inr (.inr (.inr ⟨.equals, _, equals⟩))
  · exact .inr (.inr (.inr ⟨.textMatch, _, textMatch⟩))

/-- What is found behind a tag is the content of a document. -/
theorem value_of_content {depth : Nat} {operand : Option (Reader (Expr Json))}
    {kind : Alternative (Expr Json)} {tag : String} {ts rest : List Token} {e : Expr Json}
    (found : (forms depth operand).find tag = .ok kind)
    (content : kind.content ts = .ok (e, rest))
    (inside : ∀ item, operand = some item → ∃ n, depth = n + 1 ∧ ∀ ts rest e,
      item ts = .ok (e, rest) → ∃ j, Json.value n ts = .ok (j, rest) ∧ e.Renders j) :
    ∃ v, Json.value depth ts = .ok (v, rest) ∧ e.Renders (.obj [(tag, v)]) := by
  rcases form_of_find found with ⟨rfl, rfl⟩ | ⟨rfl, rfl⟩ | ⟨rfl, rfl⟩ | ⟨op, wanted, rfl, rfl⟩
  · obtain ⟨⟨name, after⟩, read, same⟩ := Json.map_eq_ok_iff.1 content
    cases same
    rw [Json.string_eq_ok read]
    exact ⟨.str name, by rw [Json.value], .field name⟩
  · obtain ⟨⟨v, after⟩, read, same⟩ := Json.map_eq_ok_iff.1 content
    cases same
    exact ⟨v, read, .literal v⟩
  · obtain ⟨⟨_, after⟩, read, same⟩ := Json.map_eq_ok_iff.1 content
    cases same
    rw [Json.nothing_eq_ok read]
    exact ⟨.null, by rw [Json.value], .emptyParameter⟩
  · obtain ⟨⟨⟨l, r⟩, after⟩, read, same⟩ := Json.map_eq_ok_iff.1 content
    cases same
    obtain ⟨item, ts', rfl, rfl, read⟩ := Json.pair_eq_ok read
    obtain ⟨n, rfl, operands⟩ := inside item rfl
    obtain ⟨more, others, first, more', second⟩ := Json.two_eq_ok read
    obtain ⟨x, left, renders_left⟩ := operands _ _ _ first
    obtain ⟨y, right, renders_right⟩ := operands _ _ _ second
    exact ⟨.arr [x, y], Json.value_pair more left more' right,
      .binary op renders_left renders_right⟩

theorem renders_of_bare {depth : Nat} {operand : Option (Reader (Expr Json))}
    {kind : Alternative (Expr Json)} {tag : String} {e : Expr Json}
    (found : (forms depth operand).find tag = .ok kind) (bare : kind.bare = .ok e) :
    e.Renders (.str tag) := by
  rcases form_of_find found with ⟨-, rfl⟩ | ⟨-, rfl⟩ | ⟨rfl, rfl⟩ | ⟨op, wanted, -, rfl⟩
  · cases bare
  · cases bare
  · cases bare
    exact .parameter
  · cases bare

/-- **The tokens of an expression are those of a document of it.** -/
theorem value_of_read {depth : Nat} {ts rest : List Token} {e : Expr Json}
    (h : read depth ts = .ok (e, rest)) :
    ∃ j, Json.value depth ts = .ok (j, rest) ∧ e.Renders j := by
  induction depth using Nat.strongRecOn generalizing ts rest e with
  | ind depth ih =>
    cases depth with
    | zero =>
      rw [read_zero] at h
      rcases Json.tagged_eq_ok h with ⟨tag, kind, rfl, found, bare⟩ | ⟨mayNest, -⟩
      · exact ⟨.str tag, by rw [Json.value], renders_of_bare found bare⟩
      · cases mayNest
    | succ depth =>
      rw [read_succ] at h
      rcases Json.tagged_eq_ok h with ⟨tag, kind, rfl, found, bare⟩ |
        ⟨-, tag, kind, content, rfl, found, read⟩
      · exact ⟨.str tag, by rw [Json.value], renders_of_bare found bare⟩
      · obtain ⟨v, inside, renders⟩ := value_of_content found read fun item is_item => by
          cases depth with
          | zero => cases is_item
          | succ n =>
            cases is_item
            exact ⟨n, rfl, fun _ _ _ read => ih n (by omega) read⟩
        exact ⟨_, Json.value_member inside, renders⟩

/-- **A text that is parsed as an expression holds a document of it.** -/
theorem document_of_parse {source : String} {e : Expr Json} (parsed : parse source = .ok e) :
    ∃ j, Json.parse source = .ok j ∧ e.Renders j := by
  unfold parse Json.readAll at parsed
  split at parsed
  · cases parsed
  · next read =>
    cases parsed
    obtain ⟨j, value, renders⟩ := value_of_read read
    exact ⟨j, by simp only [Json.parse, Json.readAll, value], renders⟩
  · cases parsed

/-- The constants of an expression are parts of its documents. -/
theorem literals_ordered_of_renders {e : Expr Json} {j : Json} (renders : e.Renders j)
    (ordered : j.Ordered) : ∀ v ∈ e.literals, v.Ordered := by
  induction renders with
  | literal v =>
    obtain ⟨-, inside, -⟩ := ordered
    exact List.forall_mem_singleton.2 inside
  | binary op left right hl hr =>
    obtain ⟨-, ⟨ordered_left, ordered_right, -⟩, -⟩ := ordered
    exact List.forall_mem_append.2 ⟨hl ordered_left, hr ordered_right⟩
  | _ => exact nofun

/-- **The constants of an expression that is parsed are in order.** -/
theorem literals_ordered_of_parse {source : String} {e : Expr Json}
    (parsed : parse source = .ok e) : ∀ v ∈ e.literals, v.Ordered := by
  obtain ⟨j, document, renders⟩ := document_of_parse parsed
  exact literals_ordered_of_renders renders (Json.ordered_of_parse document)

end RowFilter.Expr
