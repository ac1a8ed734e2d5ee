import RowFilter.Toml.Reader

/-! Keys and headers bring names into a document's table, wherever what they describe goes below
these names. The table has no other names. -/

namespace RowFilter.Toml

namespace Entries

def names (es : Entries) : List String := es.map Prod.fst

theorem mem_names_replace {m name : String} {item : Item} {es : Entries} :
    m ∈ names (replace name item es) ↔ m ∈ names es := by
  have same : names (replace name item es) = names es := by
    rw [names, replace, List.map_map]
    refine List.map_congr_left fun e _ => ?_
    by_cases h : e.1 = name <;> simp [h]
  rw [same]

theorem mem_names_remove {m name : String} {es : Entries} :
    m ∈ names (remove name es) ↔ m ≠ name ∧ m ∈ names es := by
  simp only [names, remove, List.mem_map, List.mem_filter, bne_iff_ne]
  constructor
  · rintro ⟨e, ⟨mem, other⟩, rfl⟩
    exact ⟨other, e, mem, rfl⟩
  · rintro ⟨other, e, mem, rfl⟩
    exact ⟨e, ⟨mem, other⟩, rfl⟩

theorem mem_names_of_lookup {name : String} {item : Item} {es : Entries}
    (found : es.lookup name = some item) : name ∈ names es := by
  obtain ⟨front, rest, rfl, -⟩ := List.lookup_eq_some_iff.1 found
  simp [names]

/-- A change that brings in one name, which may be there already. -/
def Adds (name : String) (change : Change) : Prop :=
  ∀ {origin : Origin} {es es' : Entries}, change origin es = some es' →
    ∀ m, m ∈ names es' ↔ m = name ∨ m ∈ names es

theorem mem_names_replace_of_lookup {name m : String} {item old : Item} {es : Entries}
    (found : es.lookup name = some old) :
    m ∈ names (replace name item es) ↔ m = name ∨ m ∈ names es := by
  rw [mem_names_replace]
  constructor
  · exact .inr
  · rintro (rfl | mem)
    · exact mem_names_of_lookup found
    · exact mem

theorem mem_names_add? {name m : String} {item : Item} {es es' : Entries}
    (added : add? name item es = some es') : m ∈ names es' ↔ m = name ∨ m ∈ names es := by
  unfold add? at added
  split at added
  · cases added
  · cases added
    simp [names, or_comm]

theorem adds_below (made : Origin) (change : Change) (name : String) (path : List String) :
    Adds name (at? made change (name :: path)) := by
  intro origin es es' changed m
  rw [at?] at changed
  split at changed
  · obtain ⟨inner, -, added⟩ := Option.bind_eq_some_iff.1 changed
    exact mem_names_add? added
  · next found =>
    split at changed
    · cases changed
    · obtain ⟨inner, -, rfl⟩ := Option.map_eq_some_iff.1 changed
      exact mem_names_replace_of_lookup found
  · next found =>
    split at changed
    · cases changed
    · obtain ⟨inner, -, rfl⟩ := Option.map_eq_some_iff.1 changed
      exact mem_names_replace_of_lookup found
  · cases changed

theorem adds_at? {name : String} {change : Change} (adds : Adds name change) (made : Origin)
    (path : List String) : Adds (path.headD name) (at? made change path) := by
  cases path with
  | nil => exact adds
  | cons p path => exact adds_below made change p path

theorem adds_set? (path : List String) (name : String) (item : Item) :
    Adds (path.headD name) (set? path name item) := by
  refine adds_at? ?_ .dotted path
  intro origin es es' changed m
  dsimp only at changed
  split at changed
  · cases changed
  · exact mem_names_add? changed

end Entries

/-! ## Lines -/

def lines? (s : String) : Option (List Statement) :=
  let cs := skipByteOrderMark s.toList
  statements? (cs.length + 1) cs

theorem parse?_eq_bind (s : String) : parse? s = (lines? s).bind ofStatements? := rfl

/-- The name that a line brings in. -/
def Statement.top : Statement → String
  | .key path name _ => path.headD name
  | .header path name => path.headD name
  | .repeated path name => path.headD name

def Statement.isKey : Statement → Bool
  | .key .. => true
  | _ => false

/-- The names that lines bring in. Keys do so at the root, until there is a header. -/
def topNames : Bool → List Statement → List String
  | _, [] => []
  | root, st :: sts =>
    if st.isKey && !root then topNames false sts
    else st.top :: topNames (st.isKey && root) sts

namespace Draft

/-- The names that a draft has so far, with that of the table that is being read. -/
def tops (d : Draft) : List String :=
  match d.place with
  | .root => d.current.names
  | .table path name | .element path name => path.headD name :: d.root.names

def atRoot (d : Draft) : Bool :=
  match d.place with
  | .root => true
  | _ => false

theorem mem_names_settle? {d : Draft} {es : Entries} (settled : d.settle? = some es) (m : String) :
    m ∈ es.names ↔ m ∈ d.tops := by
  obtain ⟨root, place, current⟩ := d
  cases place with
  | root =>
    cases settled
    exact Iff.rfl
  | table path name =>
    rw [tops, List.mem_cons]
    exact Entries.adds_at? (fun added _ => Entries.mem_names_add? added) .passage path settled m
  | element path name =>
    rw [tops, List.mem_cons]
    refine Entries.adds_at? ?_ .passage path settled m
    intro origin es es' changed m
    dsimp only at changed
    split at changed
    · next found =>
      cases changed
      exact Entries.mem_names_replace_of_lookup found
    · exact Entries.mem_names_add? changed
    · cases changed

/-- **A line brings in its name**, unless it is a key below a header, and keeps all others. -/
theorem mem_tops_step? {d d' : Draft} {st : Statement} (step : d.step? st = some d') (m : String) :
    m ∈ d'.tops ↔ (m = st.top ∧ (st.isKey = true → d.atRoot = true)) ∨ m ∈ d.tops := by
  cases st with
  | key path name item =>
    obtain ⟨es, set, rfl⟩ := Option.map_eq_some_iff.1 step
    have added := Entries.adds_set? path name item set m
    obtain ⟨root, place, current⟩ := d
    cases place with
    | root => simpa [tops, atRoot, Statement.top, Statement.isKey] using added
    | table | element => simp [tops, atRoot, Statement.isKey]
  | header path name =>
    simp only [step?, Option.bind_eq_bind, Option.bind_eq_some_iff] at step
    obtain ⟨root, settled, passed, opened, inner, found, current, -, rest, removed, step⟩ := step
    cases step
    rw [← mem_names_settle? settled]
    -- the name may have been taken out of its table, but it stands in the header
    suffices kept : m ∈ path.headD name :: rest.names ↔ m = path.headD name ∨ m ∈ root.names by
      simpa [tops, Statement.top, Statement.isKey] using kept
    cases path with
    | nil =>
      cases opened
      cases removed
      rw [List.mem_cons, Entries.mem_names_remove]
      by_cases same : m = name <;> simp [same]
    | cons p path =>
      rw [List.mem_cons, Entries.adds_below _ _ p path removed, Entries.adds_below _ _ p path opened]
      simp
  | repeated path name =>
    simp only [step?, Option.bind_eq_bind, Option.bind_eq_some_iff] at step
    obtain ⟨root, settled, rest, opened, step⟩ := step
    cases step
    have added : m ∈ rest.names ↔ m = path.headD name ∨ m ∈ root.names := by
      refine Entries.adds_at? ?_ .passage path opened m
      intro origin es es' changed m
      dsimp only at changed
      split at changed
      · next found =>
        cases changed
        have := Entries.mem_names_of_lookup found
        by_cases same : m = name <;> simp_all
      · exact Entries.mem_names_add? changed
      · cases changed
    rw [← mem_names_settle? settled]
    simp [tops, Statement.top, Statement.isKey, added]

/-- A document is at its root until the first header. -/
theorem atRoot_step? {d d' : Draft} {st : Statement} (step : d.step? st = some d') :
    d'.atRoot = (st.isKey && d.atRoot) := by
  cases st with
  | key =>
    obtain ⟨es, -, rfl⟩ := Option.map_eq_some_iff.1 step
    rfl
  | header path name =>
    simp only [step?, Option.bind_eq_bind, Option.bind_eq_some_iff] at step
    obtain ⟨_, -, _, -, _, -, _, -, _, -, step⟩ := step
    cases step
    rfl
  | repeated path name =>
    simp only [step?, Option.bind_eq_bind, Option.bind_eq_some_iff] at step
    obtain ⟨_, -, _, -, step⟩ := step
    cases step
    rfl

theorem mem_tops_foldlM {sts : List Statement} {d d' : Draft}
    (run : sts.foldlM step? d = some d') (m : String) :
    m ∈ d'.tops ↔ m ∈ topNames d.atRoot sts ∨ m ∈ d.tops := by
  induction sts generalizing d with
  | nil =>
    cases run
    simp [topNames]
  | cons st sts ih =>
    rw [List.foldlM_cons] at run
    obtain ⟨next, step, run⟩ := Option.bind_eq_some_iff.1 run
    rw [ih run, mem_tops_step? step, atRoot_step? step, topNames]
    cases st.isKey <;> cases d.atRoot <;> simp [or_assoc, or_left_comm]

end Draft

/-- **The names of a table are those of its lines.** -/
theorem mem_names_iff {sts : List Statement} {es : Entries} (made : ofStatements? sts = some es)
    (m : String) : m ∈ es.names ↔ m ∈ topNames true sts := by
  obtain ⟨d, run, settled⟩ := Option.bind_eq_some_iff.1 made
  rw [Draft.mem_names_settle? settled, Draft.mem_tops_foldlM run]
  exact or_iff_left nofun

end RowFilter.Toml
