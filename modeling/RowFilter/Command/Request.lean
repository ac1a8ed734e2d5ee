import RowFilter.Sql.Dialect

/-! What the arguments of the command ask for. Options are written out in full, at most once each,
with their value behind an equals sign or as the next argument; nothing else is understood. -/

namespace RowFilter

inductive Request
  /-- Compile an expression file; without an output path the report is printed. -/
  | compile (expr : String) (schema : Option String) (dialect : Dialect) (output : Option String)
  /-- Print a schema. -/
  | schema (schema : Option String)
  | version
  deriving DecidableEq, Repr

namespace Request

/-- Whether an argument cannot be the value of the option before it. -/
def looksLikeOption (arg : String) : Bool := arg.startsWith "-" && arg != "-"

/-- The name of an option and the value attached to it. -/
def splitOption (arg : List Char) : String × Option String :=
  let name := arg.takeWhile (· != '=')
  match arg.dropWhile (· != '=') with
  | _ :: value => (String.ofList name, some (String.ofList value))
  | [] => (String.ofList name, none)

/-- The options of a command with their values, all of them known. -/
def options? (known : List String) : List String → Option (List (String × String))
  | [] => some []
  | arg :: rest =>
    if arg = "--" then (if rest = [] then some [] else none)
    else
      match splitOption arg.toList, rest with
      | (name, some value), rest =>
        if name ∈ known then (options? known rest).map ((name, value) :: ·) else none
      | (name, none), value :: rest =>
        if name ∈ known ∧ !looksLikeOption value then
          (options? known rest).map ((name, value) :: ·)
        else none
      | (_, none), [] => none

/-- The options of a command, none of them twice. -/
def distinctOptions? (known : List String) (args : List String) :
    Option (List (String × String)) := do
  let options ← options? known args
  if (options.map Prod.fst).Nodup then some options else none

def ofArguments? : List String → Option Request
  | "compile" :: args => do
    let options ← distinctOptions? ["--expr", "--schema", "--dialect", "--output"] args
    let expr ← options.lookup "--expr"
    let dialect ← Dialect.ofName? ((options.lookup "--dialect").getD "question-mark")
    return .compile expr (options.lookup "--schema") dialect (options.lookup "--output")
  | "schema" :: args => do
    let options ← distinctOptions? ["--schema"] args
    return .schema (options.lookup "--schema")
  | arg :: _ => if arg = "--version" ∨ arg.startsWith "-V" then some .version else none
  | [] => none

def inputs : Request → List String
  | .compile expr path _ _ => path.toList ++ [expr]
  | .schema path => path.toList
  | .version => []

/-! ## Asking for a request -/

def attached (option : String × String) : String := option.1 ++ "=" ++ option.2

def arguments : Request → List String
  | .compile expr path dialect output =>
    "compile" :: (("--expr", expr) :: ("--dialect", dialect.option) ::
      ((path.map fun path => ("--schema", path)).toList ++
        (output.map fun path => ("--output", path)).toList)).map attached
  | .schema path => "schema" :: (path.map fun path => ("--schema", path)).toList.map attached
  | .version => ["--version"]

theorem splitOption_attached {name value : String} (plain : '=' ∉ name.toList) :
    splitOption (attached (name, value)).toList = (name, some value) := by
  have inside : ∀ c ∈ name.toList, (c != '=') = true := by
    intro c hc
    exact bne_iff_ne.2 fun h => plain (h ▸ hc)
  simp [splitOption, attached, List.takeWhile_append_of_pos inside,
    List.dropWhile_append_of_pos inside]

/-- Options with their values attached are understood, whatever the values are. -/
theorem options?_attached (known : List String) (options : List (String × String))
    (listed : ∀ o ∈ options, o.1 ∈ known) (plain : ∀ name ∈ known, '=' ∉ name.toList) :
    options? known (options.map attached) = some options := by
  induction options with
  | nil => rfl
  | cons o os ih =>
    obtain ⟨first, rest⟩ := List.forall_mem_cons.1 listed
    have split : splitOption (attached o).toList = (o.1, some o.2) :=
      splitOption_attached (plain o.1 first)
    have other : attached o ≠ "--" := by
      intro h
      have : '=' ∈ "--".toList := h ▸ by simp [attached]
      exact absurd this (by decide)
    rw [List.map_cons]
    unfold options?
    simp [other, split, first, ih rest]

/-- Every request can be asked for. -/
theorem ofArguments?_arguments (r : Request) : ofArguments? r.arguments = some r := by
  cases r with
  | version => rfl
  | schema path =>
    have read := options?_attached ["--schema"]
      (path.map fun path => ("--schema", path)).toList (by cases path <;> simp) (by decide)
    cases path <;> simp_all [arguments, ofArguments?, distinctOptions?]
  | compile expr path dialect output =>
    have read := options?_attached ["--expr", "--schema", "--dialect", "--output"]
      (("--expr", expr) :: ("--dialect", dialect.option) ::
        ((path.map fun path => ("--schema", path)).toList ++
          (output.map fun path => ("--output", path)).toList))
      (by cases path <;> cases output <;> simp) (by decide)
    cases path <;> cases output <;>
      simp_all [arguments, ofArguments?, distinctOptions?, List.lookup_cons]

end Request

end RowFilter
