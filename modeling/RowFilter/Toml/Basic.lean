import RowFilter.Binary64.Basic

/-! A document is a table: names with values in the order in which they came into it. Besides what a
table holds it matters how it was made, since only some tables can be added to later. -/

namespace RowFilter.Toml

/-- How a table came to be. -/
inductive Origin
  /-- A header of its own. -/
  | header
  /-- A longer header that passes through it. -/
  | passage
  /-- A dotted key that passes through it. -/
  | dotted
  /-- Braces; nothing can be added afterwards. -/
  | braces
  deriving DecidableEq, Repr

inductive Item
  | string (s : String)
  | integer (n : Int)
  | float (x : Binary64)
  | boolean (b : Bool)
  /-- A date, a time or both; which one is never asked. -/
  | dateTime
  | array (items : List Item)
  | table (origin : Origin) (entries : List (String × Item))
  /-- The tables of one repeated header. -/
  | tables (elements : List (List (String × Item)))
  deriving Repr

abbrev Entries : Type := List (String × Item)

namespace Entries

/-- Replaces the item of a name in its place. -/
def replace (name : String) (item : Item) (es : Entries) : Entries :=
  es.map fun e => if e.1 == name then (name, item) else e

def remove (name : String) (es : Entries) : Entries := es.filter fun e => e.1 != name

/-- Adds a name, which has to be new. -/
def add? (name : String) (item : Item) (es : Entries) : Option Entries :=
  match es.lookup name with
  | some _ => none
  | none => some (es ++ [(name, item)])

/-- The origin and entries of a table, and what a change makes of them. -/
abbrev Change : Type := Origin → Entries → Option Entries

/-- Changes the table at the end of a path. Tables that are missing on the way are made, with
`made` as their origin; a dotted key cannot pass through a table with a header. -/
def at? (made : Origin) (change : Change) : List String → Change
  | [], origin, es => change origin es
  | name :: path, _, es =>
    match es.lookup name with
    | none => (at? made change path made []).bind fun inner => add? name (.table made inner) es
    | some (.table origin inner) =>
      if origin = .braces ∨ (made = .dotted ∧ origin = .header) then none
      else (at? made change path origin inner).map fun inner =>
        replace name (.table origin inner) es
    | some (.tables elements) =>
      match elements.getLast? with
      | none => none
      | some last => (at? made change path .header last).map fun inner =>
          replace name (.tables (elements.dropLast ++ [inner])) es
    | some _ => none

/-- The entries of the table at the end of a path that is there. -/
def follow? : List String → Entries → Option Entries
  | [], es => some es
  | name :: path, es =>
    match es.lookup name with
    | some (.table _ inner) => follow? path inner
    | some (.tables elements) => elements.getLast?.bind (follow? path)
    | _ => none

/-- Sets a key, which is dotted unless the path before its last name is empty. A dotted key adds
only to tables that dotted keys made. -/
def set? (path : List String) (name : String) (item : Item) (origin : Origin) (es : Entries) :
    Option Entries :=
  let change : Change := fun origin es =>
    if path ≠ [] ∧ origin ≠ .dotted then none else add? name item es
  at? .dotted change path origin es

end Entries

/-- A line that says something. Keys and headers are paths with a last name. -/
inductive Statement
  | key (path : List String) (name : String) (item : Item)
  | header (path : List String) (name : String)
  | repeated (path : List String) (name : String)
  deriving Repr

/-- Where the keys that follow a header go. -/
inductive Place
  | root
  | table (path : List String) (name : String)
  | element (path : List String) (name : String)
  deriving Repr

/-- A document as far as it was read: the entries under the last header are not yet in their
place. -/
structure Draft where
  root : Entries
  place : Place
  current : Entries
  deriving Repr

namespace Draft

def empty : Draft := ⟨[], .root, []⟩

/-- Puts the current entries in their place. A table comes after all that is there already. -/
def settle? (d : Draft) : Option Entries :=
  match d.place with
  | .root => some d.current
  | .table path name =>
    Entries.at? .passage (fun _ es => Entries.add? name (.table .header d.current) es) path
      .header d.root
  | .element path name =>
    Entries.at? .passage (fun _ es =>
      match es.lookup name with
      | some (.tables elements) =>
        some (Entries.replace name (.tables (elements ++ [d.current])) es)
      | none => Entries.add? name (.tables [d.current]) es
      | some _ => none) path .header d.root

/-- The entries of a table that is about to get its header: none, or those that longer headers
gave it before. -/
def reopened? (name : String) (es : Entries) : Option Entries :=
  match es.lookup name with
  | none => some []
  | some (.table .passage inner) => some inner
  | some _ => none

def step? (d : Draft) : Statement → Option Draft
  | .key path name item =>
    (Entries.set? path name item .header d.current).map fun es => { d with current := es }
  | .header path name => do
    let root ← d.settle?
    let root ← Entries.at? .passage (fun _ es => some es) path .header root
    let current ← reopened? name (← root.follow? path)
    let root ← Entries.at? .passage (fun _ es => some (Entries.remove name es)) path .header root
    return ⟨root, .table path name, current⟩
  | .repeated path name => do
    let root ← d.settle?
    let root ← Entries.at? .passage (fun _ es =>
      match es.lookup name with
      | some (.tables _) => some es
      | none => Entries.add? name (.tables []) es
      | some _ => none) path .header root
    return ⟨root, .element path name, []⟩

end Draft

/-- The table that a document's lines make, unless two of them contradict. -/
def ofStatements? (statements : List Statement) : Option Entries :=
  (statements.foldlM Draft.step? Draft.empty).bind Draft.settle?

end RowFilter.Toml
