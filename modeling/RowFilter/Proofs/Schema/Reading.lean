import RowFilter.Compile.Emission
import RowFilter.Proofs.Schema.Check
import RowFilter.Proofs.Toml.Documents
import RowFilter.Proofs.Toml.Names

/-!
# Schemas read from documents

A document gives any of the three settings, in any order, and the schema takes
the defaults for the others. The names in it are then checked.

* `Given`, `Given.Describes`: the settings of a document and the schema they describe;
* `foldlM_withEntry`: the order of the settings does not matter;
* `ofToml_of_unknown`: a document with any other name is refused;
* `ofToml_outcome`: what is made of a document.
-/

namespace RowFilter.Schema

open Toml (Item Written SpellsEscape SpellsString SpellsStrings SpellsKey SpellsLine IsBlanks Trivia
  isBlank isPlain)

/-! ## Settings -/

theorem columns_ext {a b : Columns} (same : ∀ c, c ∈ a ↔ c ∈ b) : a = b := by
  obtain ⟨as, ascending⟩ := a
  obtain ⟨bs, ascending'⟩ := b
  have distinct {ns : List String} (ascending : ns.Pairwise (· < ·)) : ns.Nodup :=
    ascending.imp fun lt => by rintro rfl; exact String.lt_irrefl _ lt
  have perm : as.Perm bs :=
    (List.perm_ext_iff_of_nodup (distinct ascending) (distinct ascending')).2 same
  obtain rfl := perm.eq_of_pairwise (fun _ _ _ _ lt gt => absurd lt (String.lt_asymm gt)) ascending
    ascending'
  rfl

/-- What a document says about a schema; each setting may be left out. -/
structure Given where
  columns : Option (List String)
  documentColumn : Option String
  textSearchConfig : Option String

namespace Given

def entries (g : Given) : Toml.Entries :=
  (g.columns.map fun names => ("relational_columns", .array (names.map .string))).toList ++
    ((g.documentColumn.map fun name => ("document_column", .string name)).toList ++
      (g.textSearchConfig.map fun name => ("text_search_config", .string name)).toList)

/-- The schema with these settings, its columns as a set, and the defaults for those settings that
were left out. -/
structure Describes (g : Given) (s : Schema) : Prop where
  columns : ∀ c, c ∈ s.columns ↔ c ∈ g.columns.getD ["ID", "Type", "Version"]
  documentColumn : s.documentColumn = g.documentColumn.getD "Fields"
  textSearchConfig : s.textSearchConfig = g.textSearchConfig.getD "english"

theorem Describes.unique {g : Given} {s s' : Schema} (h : g.Describes s) (h' : g.Describes s') :
    s = s' := by
  have columns : s.columns = s'.columns :=
    columns_ext fun c => (h.columns c).trans (h'.columns c).symm
  have document := h.documentColumn.trans h'.documentColumn.symm
  have config := h.textSearchConfig.trans h'.textSearchConfig.symm
  cases s
  cases s'
  simp_all

/-- A schema with these settings in place of its own. -/
def overlay (g : Given) (s : Schema) : Schema where
  columns := (g.columns.map .ofList).getD s.columns
  documentColumn := g.documentColumn.getD s.documentColumn
  textSearchConfig := g.textSearchConfig.getD s.textSearchConfig

theorem describes_overlay (g : Given) : g.Describes (g.overlay default) := by
  refine ⟨fun c => ?_, rfl, rfl⟩
  rw [overlay]
  cases g.columns with
  | none => exact Columns.mem_ofList
  | some names => exact Columns.mem_ofList

theorem nodup_entries (g : Given) : (g.entries.map Prod.fst).Nodup := by
  obtain ⟨_ | names, _ | name, _ | config⟩ := g <;> simp [entries]

end Given

theorem stringItems_strings (names : List String) :
    stringItems (.array (names.map .string)) = .ok names := by
  rw [stringItems]
  induction names with
  | nil => rfl
  | cons name names ih => rw [List.map_cons, List.mapM_cons, ih]; rfl

/-- One setting is taken over, and the others are left. -/
theorem perm_of_cons {e : String × Toml.Item} {es : Toml.Entries} {g : Given}
    (given : (e :: es).Perm g.entries) (s : Schema) :
    ∃ (rest : Given) (s' : Schema), es.Perm rest.entries ∧ withEntry s e = .ok s' ∧
      rest.overlay s' = g.overlay s := by
  obtain ⟨columns, document, config⟩ := g
  have mem := given.subset List.mem_cons_self
  simp only [Given.entries, List.mem_append, Option.mem_toList, Option.map_eq_some_iff] at mem
  rcases mem with ⟨names, rfl, rfl⟩ | ⟨name, rfl, rfl⟩ | ⟨name, rfl, rfl⟩
  · refine ⟨⟨none, document, config⟩, { s with columns := .ofList names }, ?_, ?_, rfl⟩
    · exact (List.perm_cons _).1 given
    · simp [withEntry, stringItems_strings]
      rfl
  · refine ⟨⟨columns, none, config⟩, { s with documentColumn := name }, ?_, rfl, rfl⟩
    exact (List.perm_cons _).1 (given.trans List.perm_middle)
  · refine ⟨⟨columns, document, none⟩, { s with textSearchConfig := name }, ?_, rfl, rfl⟩
    refine (List.perm_cons _).1 (given.trans ?_)
    rw [Given.entries, Given.entries, ← List.append_assoc, ← List.append_assoc]
    exact List.perm_middle

/-- Settings are taken over in whatever order they come. -/
theorem foldlM_withEntry {es : Toml.Entries} {g : Given} (given : es.Perm g.entries) (s : Schema) :
    es.foldlM withEntry s = .ok (g.overlay s) := by
  induction es generalizing g s with
  | nil =>
    obtain ⟨_ | names, _ | name, _ | config⟩ := g
    · rfl
    all_goals cases given.symm.eq_nil
  | cons e es ih =>
    obtain ⟨rest, s', others, taken, same⟩ := perm_of_cons given s
    rw [List.foldlM_cons, taken, ← same]
    exact ih others s'

theorem foldlM_withEntry_of_unknown {es : Toml.Entries} {e : String × Toml.Item} (mem : e ∈ es)
    (unknown : e.1 ∉ keys) (s : Schema) : ∃ m, es.foldlM withEntry s = .error m := by
  induction es generalizing s with
  | nil => cases mem
  | cons other es ih =>
    rw [List.foldlM_cons]
    cases taken : withEntry s other with
    | error m => exact ⟨m, rfl⟩
    | ok s' =>
      rcases List.mem_cons.1 mem with rfl | mem
      · simp only [keys, List.mem_cons, List.not_mem_nil, or_false, not_or] at unknown
        simp [withEntry, unknown] at taken
      · exact ih mem s'

/-- Settings in any order are checked together with the defaults for those that were left out. -/
theorem ofToml_of_entries {source : String} {es : Toml.Entries} {g : Given}
    (read : Toml.parse? source = some es) (given : es.Perm g.entries) :
    ofToml source = check (g.overlay default) := by
  simp only [ofToml, read, ofEntries, foldlM_withEntry given default]

theorem ofToml_of_unknown {source name : String} {sts : List Toml.Statement}
    (lines : Toml.lines? source = some sts) (top : name ∈ Toml.topNames true sts)
    (unknown : name ∉ keys) : ∃ why, ofToml source = .error (.parse why) := by
  rw [ofToml, Toml.parse?_eq_bind, lines, Option.bind_some]
  cases made : Toml.ofStatements? sts with
  | none => exact ⟨.notToml, rfl⟩
  | some es =>
    obtain ⟨e, mem, rfl⟩ := List.mem_map.1 ((Toml.mem_names_iff made name).2 top)
    obtain ⟨m, refused⟩ := foldlM_withEntry_of_unknown mem unknown default
    refine ⟨.mismatch m, ?_⟩
    simp only [ofEntries, refused]

/-- **A document gives a schema, or the first of its names that is not plain.** What it says about
a schema may be written in any of the ways that TOML knows, or be whatever the reader of TOML finds
in the text, and the settings may come in any order. A text whose lines bring in another name is not
taken for a schema, whatever else it holds, and a schema that was read makes a compiler. -/
theorem ofToml_outcome (source : String) :
    (∀ es (g : Given), es.Perm g.entries → Written es source ∨ Toml.parse? source = some es →
      ∃ s, g.Describes s ∧ (s.Plain → ofToml source = .ok s) ∧
        (¬ s.Plain → ∃ setting value, s.Offends setting value ∧
          ofToml source = .error (.invalidIdentifier setting value))) ∧
    (∀ sts, Toml.lines? source = some sts → (∃ name ∈ Toml.topNames true sts, name ∉ keys) →
      ∃ why, ofToml source = .error (.parse why)) ∧
    (∀ s, ofToml source = .ok s → ∀ d, ∃ valid, Compiler.ofSchema s d = .ok ⟨s, valid, d⟩) := by
  refine ⟨?_, ?_, ?_⟩
  · intro es g given read
    have read : Toml.parse? source = some es := by
      rcases read with written | read
      · exact Toml.parse?_of_written written ((given.map _).nodup_iff.2 g.nodup_entries)
      · exact read
    refine ⟨g.overlay default, g.describes_overlay, ?_⟩
    rw [ofToml_of_entries read given]
    exact check_outcome _
  · rintro sts lines ⟨name, top, unknown⟩
    exact ofToml_of_unknown lines top unknown
  · intro s accepted d
    obtain ⟨-, valid⟩ := ofToml_eq_ok_iff.1 accepted
    exact ⟨valid, Compiler.ofSchema_of_valid valid d⟩

/-- Columns that come twice, in no order and with an escape, behind another setting; columns of which
the one that is reported comes last; and a header, whose name is not one of the three. -/
theorem ofToml_outcome_unordered :
    let accepted := "text_search_config = 'simple'\r\nrelational_columns = " ++
      "[\"Z\", # again\n'A_1', \"\\u005A\"]"
    let refused := "relational_columns=['\u00e9','b c']"
    let unknown := "[owner]\nname = 'x'"
    let columns (names : List String) : String × Item :=
      ("relational_columns", .array (names.map .string))
    let schema : Schema := ⟨.ofList ["A_1", "Z"], "Fields", "simple"⟩
    (Written [("text_search_config", .string "simple"), columns ["Z", "A_1", "Z"]] accepted ∧
      ofToml accepted = .ok schema ∧
      ∀ d, ∃ valid, Compiler.ofSchema schema d = .ok ⟨schema, valid, d⟩) ∧
    (Written [columns ["\u00e9", "b c"]] refused ∧
      ofToml refused = .error (.invalidIdentifier .relationalColumn "b c")) ∧
    (Toml.lines? unknown =
        some [.header [] "owner", .key [] "name" (.string "x")] ∧
      ∃ why, ofToml unknown = .error (.parse why)) := by
  intro accepted refused unknown columns schema
  have none : IsBlanks [] := List.forall_mem_nil _
  have space : IsBlanks [' '] := List.forall_mem_singleton.2 rfl
  have gap : Trivia [' '] := .gap (.blank rfl .nil)
  have columnsKey : SpellsKey "relational_columns".toList _ :=
    .of_all (by decide +kernel) (by decide +kernel)
  have configKey : SpellsKey "text_search_config".toList _ :=
    .of_all (by decide +kernel) (by decide +kernel)
  refine ⟨?_, ?_, ?_⟩
  · have quoted : SpellsString "Z".toList _ := .basic (.plain rfl (by decide) (by decide) .nil)
    have escaped : SpellsString "Z".toList _ :=
      .basic (.escape (@SpellsEscape.four 'Z' ['0', '0', '5', 'A'] rfl (by decide)) .nil)
    have again : Trivia _ :=
      .comment (.blank (show isBlank ' ' = true from rfl) .nil)
        (List.all_eq_true.1 (show " again".toList.all isPlain = true by decide +kernel)) .feed
        (.gap .nil)
    have names : SpellsStrings ["Z", "A_1", "Z"] _ :=
      .next (.gap .nil) quoted (.gap .nil)
        (.next again (.of_all (by decide +kernel)) (.gap .nil) (.last gap escaped (.gap .nil)))
    have first : SpellsLine [("text_search_config", .string "simple")] _ :=
      .entry none configKey space space (.string (.of_all (by decide +kernel))) none .none
    have second : SpellsLine [columns ["Z", "A_1", "Z"]] _ :=
      .entry none columnsKey space space (.array names) none .none
    have written : Written _ accepted :=
      ⟨_, .line first .carriage (.last second), .inl (by decide +kernel)⟩
    let g : Given := ⟨some ["Z", "A_1", "Z"], .none, some "simple"⟩
    have described : g.Describes schema :=
      ⟨fun c => Columns.mem_ofList.trans (by simp +contextual [g]), rfl, rfl⟩
    have plain : schema.Plain := valid_iff_plain.1 (by decide +kernel)
    obtain ⟨s, describes, accepts, -⟩ := (ofToml_outcome accepted).1 _ g (.swap ..) (.inl written)
    obtain rfl : s = schema := describes.unique described
    exact ⟨written, accepts plain, (ofToml_outcome accepted).2.2 _ (accepts plain)⟩
  · have names : SpellsStrings ["\u00e9", "b c"] _ :=
      .next (.gap .nil) (.of_all (by decide +kernel)) (.gap .nil)
        (.last (.gap .nil) (.of_all (by decide +kernel)) (.gap .nil))
    have line : SpellsLine [columns ["\u00e9", "b c"]] _ :=
      .entry none columnsKey none none (.array names) none .none
    have written : Written _ refused := ⟨_, .last line, .inl (by decide +kernel)⟩
    refine ⟨written, ?_⟩
    let g : Given := ⟨some ["\u00e9", "b c"], .none, .none⟩
    let schema : Schema := ⟨.ofList ["\u00e9", "b c"], "Fields", "english"⟩
    have described : g.Describes schema := ⟨fun _ => Columns.mem_ofList, rfl, rfl⟩
    have bad : ¬ schema.Plain := mt valid_iff_plain.2 (by decide +kernel)
    have least : schema.Offends .relationalColumn "b c" :=
      offends_of_firstInvalid? (by decide +kernel)
    obtain ⟨s, describes, -, refuses⟩ := (ofToml_outcome refused).1 _ g (.refl _) (.inl written)
    obtain rfl := describes.unique described
    obtain ⟨setting, value, offends, outcome⟩ := refuses bad
    obtain ⟨rfl, rfl⟩ := offends.unique least
    exact outcome
  · have lines : Toml.lines? "[owner]\nname = 'x'" =
        some [.header [] "owner", .key [] "name" (.string "x")] := by rfl
    exact ⟨lines, (ofToml_outcome unknown).2.1 _ lines ⟨"owner", List.mem_cons_self, by decide⟩⟩

end RowFilter.Schema
