import RowFilter.Toml.Scan

namespace RowFilter.Toml

/-- A scanner that takes something off the front of a text. -/
abbrev Scanner (α : Type) : Type := List Char → Option (α × List Char)

/-- The items of an array after its opening bracket: commas between, one allowed after the last. -/
def items? (value? : Scanner Item) : Nat → Scanner (List Item)
  | 0, _ => none
  | steps + 1, cs =>
    match skipTrivia cs.length cs with
    | ']' :: cs => some ([], cs)
    | cs => do
      let (item, cs) ← value? cs
      match skipTrivia cs.length cs with
      | ',' :: cs =>
        let (more, cs) ← items? value? steps cs
        return (item :: more, cs)
      | ']' :: cs => return ([item], cs)
      | _ => none

/-- A key, an equals sign and a value, up to the value's end. -/
def keyValue? (value? : Scanner Item) : Scanner ((List String × String) × Item) := fun cs => do
  let (key, cs) ← key? cs
  let cs ← mark? '=' cs
  let (item, cs) ← value? (skipBlanks cs)
  return ((key, item), cs)

/-- The keys between braces: commas between, none after the last, all on one line. -/
def fields? (value? : Scanner Item) : Nat → Entries → Scanner Entries
  | 0, _, _ => none
  | steps + 1, es, cs => do
    let ((key, item), cs) ← keyValue? value? cs
    let es ← es.set? key.1 key.2 item .braces
    match skipBlanks cs with
    | ',' :: cs => fields? value? steps es cs
    | '}' :: cs => return (es, cs)
    | _ => none

/-- A value whose brackets go at most `depth` deep. -/
def value? (depth : Nat) : Scanner Item := fun cs =>
  match cs with
  | '[' :: cs =>
    match depth with
    | 0 => none
    | depth + 1 => (items? (value? depth) (cs.length + 1) cs).map fun r => (.array r.1, r.2)
  | '{' :: cs =>
    match depth with
    | 0 => none
    | depth + 1 =>
      match skipBlanks cs with
      | '}' :: cs => some (.table .braces [], cs)
      | cs => (fields? (value? depth) (cs.length + 1) [] cs).map fun r => (.table .braces r.1, r.2)
  | 't' :: 'r' :: 'u' :: 'e' :: cs => some (.boolean true, cs)
  | 'f' :: 'a' :: 'l' :: 's' :: 'e' :: cs => some (.boolean false, cs)
  | '"' :: _ => (string? cs).map fun r => (.string (String.ofList r.1), r.2)
  | '\'' :: _ => (string? cs).map fun r => (.string (String.ofList r.1), r.2)
  | cs => dateOrNumber? cs

def statements? : Nat → List Char → Option (List Statement)
  | 0, _ => none
  | steps + 1, cs =>
    match skipBlanks cs with
    | [] => some []
    | '[' :: '[' :: cs => do
      let ((path, name), cs) ← key? cs
      let cs ← mark? ']' cs
      let cs ← mark? ']' cs
      let more ← statements? steps (← restOfLine? cs)
      return .repeated path name :: more
    | '[' :: cs => do
      let ((path, name), cs) ← key? cs
      let cs ← mark? ']' cs
      let more ← statements? steps (← restOfLine? cs)
      return .header path name :: more
    | cs =>
      if cs.head? = some '#' ∨ (newLine? cs).isSome then
        (restOfLine? cs).bind (statements? steps)
      else do
        let (((path, name), item), cs) ← keyValue? (value? depthLimit) cs
        let more ← statements? steps (← restOfLine? cs)
        return .key path name item :: more

def skipByteOrderMark : List Char → List Char
  | '\ufeff' :: cs => cs
  | cs => cs

def parse? (s : String) : Option Entries :=
  let cs := skipByteOrderMark s.toList
  (statements? (cs.length + 1) cs).bind ofStatements?

end RowFilter.Toml
