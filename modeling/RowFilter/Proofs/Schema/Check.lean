import RowFilter.Proofs.Text.Bytes
import RowFilter.Schema.Reader

namespace RowFilter.Schema

/-! ## Plain names -/

/-- ASCII letters, digits and the underscore. -/
def IsWordChar (c : Char) : Prop :=
  'A' ≤ c ∧ c ≤ 'Z' ∨ 'a' ≤ c ∧ c ≤ 'z' ∨ '0' ≤ c ∧ c ≤ '9' ∨ c = '_'

/-- A name that may stand in a clause as it is. -/
def IsPlainName (name : String) : Prop := name ≠ "" ∧ ∀ c ∈ name.toList, IsWordChar c

theorem isIdentifierChar_iff {c : Char} : isIdentifierChar c = true ↔ IsWordChar c := by
  delta isIdentifierChar Char.isAlphanum Char.isAlpha Char.isUpper Char.isLower Char.isDigit
  simp only [Bool.or_eq_true, Bool.and_eq_true, decide_eq_true_eq, beq_iff_eq, ge_iff_le, or_assoc,
    IsWordChar, Char.le_def]

theorem isIdentifier_iff_isPlainName {name : String} :
    isIdentifier name = true ↔ IsPlainName name := by
  simp only [isIdentifier_iff, IsPlainName, isIdentifierChar_iff]

/-- Every name of the schema is plain. -/
structure Plain (s : Schema) : Prop where
  documentColumn : IsPlainName s.documentColumn
  textSearchConfig : IsPlainName s.textSearchConfig
  columns : ∀ c ∈ s.columns, IsPlainName c

theorem valid_iff_plain {s : Schema} : s.Valid ↔ s.Plain := by
  simp only [valid_iff, isIdentifier_iff_isPlainName]
  exact ⟨fun ⟨d, t, c⟩ => ⟨d, t, c⟩, fun ⟨d, t, c⟩ => ⟨d, t, c⟩⟩

/-! ## The report -/

/-- The name that is reported: the document column, else the text search configuration, else of
the columns whose names are not plain the one with the least bytes. -/
inductive Offends (s : Schema) : Setting → String → Prop
  | documentColumn (bad : ¬ IsPlainName s.documentColumn) :
      Offends s .documentColumn s.documentColumn
  | textSearchConfig (document : IsPlainName s.documentColumn)
      (bad : ¬ IsPlainName s.textSearchConfig) : Offends s .textSearchConfig s.textSearchConfig
  | relationalColumn {c : String} (document : IsPlainName s.documentColumn)
      (config : IsPlainName s.textSearchConfig) (mem : c ∈ s.columns) (bad : ¬ IsPlainName c)
      (least : ∀ d ∈ s.columns, ¬ IsPlainName d → d = c ∨ Text.bytes c < Text.bytes d) :
      Offends s .relationalColumn c

theorem Offends.unique {s : Schema} {first second : Setting} {c d : String}
    (offends : s.Offends first c) (other : s.Offends second d) : first = second ∧ c = d := by
  cases offends with
  | documentColumn bad =>
    cases other with
    | documentColumn => exact ⟨rfl, rfl⟩
    | textSearchConfig document | relationalColumn document => exact absurd document bad
  | textSearchConfig document bad =>
    cases other with
    | documentColumn worse => exact absurd document worse
    | textSearchConfig => exact ⟨rfl, rfl⟩
    | relationalColumn _ config => exact absurd config bad
  | relationalColumn document config mem bad least =>
    cases other with
    | documentColumn worse => exact absurd document worse
    | textSearchConfig _ worse => exact absurd config worse
    | relationalColumn _ _ mem' bad' least' =>
      refine ⟨rfl, ?_⟩
      rcases least d mem' bad' with same | before
      · exact same.symm
      · rcases least' c mem bad with same | after
        · exact same
        · exact absurd after (List.lt_asymm before)

theorem least_of_find? {c : String} {columns : Columns}
    (found : columns.names.find? (fun c => !isIdentifier c) = some c) :
    c ∈ columns ∧ ¬ IsPlainName c ∧
      ∀ d ∈ columns, ¬ IsPlainName d → d = c ∨ Text.bytes c < Text.bytes d := by
  obtain ⟨bad, front, rest, split, good⟩ := List.find?_eq_some_iff_append.1 found
  have ascending := columns.ascending
  rw [split, List.pairwise_append, List.pairwise_cons] at ascending
  refine ⟨?_, ?_, ?_⟩
  · rw [Columns.mem_def, split]
    exact List.mem_append_right _ List.mem_cons_self
  · rw [← isIdentifier_iff_isPlainName]
    simpa using bad
  · intro d mem other
    rw [Columns.mem_def, split, List.mem_append, List.mem_cons] at mem
    rw [← isIdentifier_iff_isPlainName] at other
    -- a column that stands before the one that was found would have been found itself
    rcases mem with before | same | behind
    · exact absurd (by simpa using good d before) other
    · exact .inl same
    · exact .inr (Text.lt_iff_bytes.1 (ascending.2.1.1 d behind))

/-- **The check reports the first name that is not plain.** -/
theorem offends_of_firstInvalid? {s : Schema} {setting : Setting} {value : String}
    (found : s.firstInvalid? = some (setting, value)) : s.Offends setting value := by
  rw [firstInvalid?, settings] at found
  by_cases document : IsPlainName s.documentColumn
  · rw [List.find?_cons_of_neg (by simpa [isIdentifier_iff_isPlainName] using document)] at found
    by_cases config : IsPlainName s.textSearchConfig
    · rw [List.find?_cons_of_neg (by simpa [isIdentifier_iff_isPlainName] using config),
        List.find?_map] at found
      obtain ⟨c, found, same⟩ := Option.map_eq_some_iff.1 found
      obtain ⟨mem, bad, least⟩ := least_of_find? found
      cases same
      exact .relationalColumn document config mem bad least
    · rw [List.find?_cons_of_pos (by simpa [← isIdentifier_iff_isPlainName] using config)] at found
      cases found
      exact .textSearchConfig document config
  · rw [List.find?_cons_of_pos (by simpa [← isIdentifier_iff_isPlainName] using document)] at found
    cases found
    exact .documentColumn document

/-- The check passes a schema of plain names as it is, and no other. -/
theorem check_outcome (s : Schema) :
    (s.Plain → check s = .ok s) ∧
      (¬ s.Plain → ∃ setting value, s.Offends setting value ∧
        check s = .error (.invalidIdentifier setting value)) := by
  constructor
  · intro plain
    exact check_eq_ok_iff.2 ⟨rfl, valid_iff_plain.2 plain⟩
  · intro bad
    obtain ⟨⟨setting, value⟩, found⟩ := Option.ne_none_iff_exists'.1 (mt valid_iff_plain.1 bad)
    exact ⟨setting, value, offends_of_firstInvalid? found, by rw [check, found]⟩

end RowFilter.Schema
