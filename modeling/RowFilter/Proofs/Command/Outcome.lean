import RowFilter.Command.Run
import RowFilter.Proofs.Compile.Emission
import RowFilter.Proofs.Json.Printing

/-!
# What a run comes to

A run that compiles an expression needs a schema, an expression, a place for its
report and a filter without errors, in that order. Whatever is missing first is
what the run fails for. Only the errors of the filter come to light after the
report, which is therefore delivered with all of them in it.

* `Command.HasSchema`, `Command.HasExpr`, `Command.Writable`: what the files have
  to provide; `Command.SchemaFails`, `Command.ExprFails`: how they fail to;
* `Command.Compiles`: the filter of a run that has a schema and an expression;
* `Command.loadSchema_eq_ok_iff`, `Command.loadExpr_eq_ok_iff`: loading gives what
  the files provide, and nothing else;
* `Command.Outcome.Reports`: what is delivered for a filter, and what is logged;
* `Command.conclude_reports`, `Command.conclude_of_not_writable`: it is delivered,
  or its place is to blame;
* `Command.run_compile`: when a run succeeds, and what it comes to otherwise.
-/

namespace RowFilter.Command

variable {files : Surroundings} {path : String} {schemaPath output : Option String} {d : Dialect}
variable {s : Schema} {e : Expr Value} {f : Filter} {error : Error} {arguments : List String}

/-- The schema of a run: the default one, or the one that a file describes, if its names are
identifiers. -/
inductive HasSchema (files : Surroundings) : Option String → Schema → Prop
  | default : HasSchema files none .default
  | file {path source : String} {entries : Toml.Entries} {s : Schema}
      (read : files.read path = .ok source) (parsed : Toml.parse? source = some entries)
      (described : Schema.ofEntries entries = .ok s) (valid : s.Valid) :
      HasSchema files (some path) s

theorem HasSchema.valid (has : HasSchema files schemaPath s) : s.Valid := by
  cases has with
  | default => exact Schema.default_valid
  | file _ _ _ valid => exact valid

/-- A schema that is asked for is refused. -/
inductive SchemaFails (files : Surroundings) : Option String → Error → Prop
  | file {path : String} {why : Schema.Error}
      (refused : Schema.ofFile path (files.read path) = .error why) :
      SchemaFails files (some path) (.schema why)

/-- The expression of a run, which a file has to hold in its document form. -/
inductive HasExpr (files : Surroundings) (path : String) : Expr Value → Prop
  | file {source : String} {document : Expr Json} (read : files.read path = .ok source)
      (parsed : Expr.parse source = .ok document) : HasExpr files path (.ofDocument document)

/-- There is no text to read, or it is not an expression. -/
inductive ExprFails (files : Surroundings) (path : String) : Error → Prop
  | unread {why : FileError} (read : files.read path = .error why) :
      ExprFails files path (.exprFileRead why)
  | unparsed {source : String} {why : Json.Problem} (read : files.read path = .ok source)
      (refused : Expr.parse source = .error why) : ExprFails files path (.exprParse why)

/-- There is all that compilation needs, and this is the filter it comes to. -/
inductive Compiles (files : Surroundings) (path : String) (schemaPath : Option String)
    (d : Dialect) : Filter → Prop
  | intro {s : Schema} {e : Expr Value} (schema : HasSchema files schemaPath s)
      (expr : HasExpr files path e) : Compiles files path schemaPath d
        ((Compiler.mk s schema.valid d).compile (Tree.ofExpr e))

/-- The report can be delivered: to the file at a path, if one is given, and else in any case. -/
def Writable (files : Surroundings) (output : Option String) : Prop :=
  ∀ file, output = some file → files.write file = .ok ()

/-! ## Schemas and expressions -/

theorem mapError_eq_ok_iff {α ε ε' : Type} {result : Except ε α} {words : ε → ε'} {a : α} :
    result.mapError words = .ok a ↔ result = .ok a := by
  cases result with
  | error why => exact iff_of_false nofun nofun
  | ok a' =>
    constructor
    · rintro ⟨rfl⟩
      rfl
    · rintro ⟨rfl⟩
      rfl

theorem mapError_eq_error_iff {α ε ε' : Type} {result : Except ε α} {words : ε → ε'} {why' : ε'} :
    result.mapError words = .error why' ↔ ∃ why, result = .error why ∧ words why = why' := by
  cases result with
  | error why =>
    constructor
    · rintro ⟨rfl⟩
      exact ⟨why, rfl, rfl⟩
    · rintro ⟨_, ⟨rfl⟩, rfl⟩
      rfl
  | ok a => exact iff_of_false nofun fun ⟨_, h, _⟩ => nomatch h

theorem loadSchema_eq_ok_iff : loadSchema files schemaPath = .ok s ↔ HasSchema files schemaPath s := by
  constructor
  · intro loaded
    cases schemaPath with
    | none =>
      cases loaded
      exact .default
    | some path =>
      obtain ⟨source, read, accepted⟩ := Schema.ofFile_eq_ok_iff.1 (mapError_eq_ok_iff.1 loaded)
      obtain ⟨⟨entries, parsed, described⟩, valid⟩ := Schema.ofToml_eq_ok_iff.1 accepted
      exact .file read parsed described valid
  · intro has
    cases has with
    | default => rfl
    | file read parsed described valid =>
      have accepted := Schema.ofToml_eq_ok_iff.2 ⟨⟨_, parsed, described⟩, valid⟩
      exact mapError_eq_ok_iff.2 (Schema.ofFile_eq_ok_iff.2 ⟨_, read, accepted⟩)

theorem loadSchema_eq_error_iff :
    loadSchema files schemaPath = .error error ↔ SchemaFails files schemaPath error := by
  constructor
  · intro fails
    cases schemaPath with
    | none => cases fails
    | some path =>
      obtain ⟨why, refused, rfl⟩ := mapError_eq_error_iff.1 fails
      exact .file refused
  · rintro ⟨refused⟩
    exact mapError_eq_error_iff.2 ⟨_, refused, rfl⟩

theorem loadExpr_eq_ok_iff : loadExpr files path = .ok e ↔ HasExpr files path e := by
  constructor
  · intro loaded
    cases read : files.read path with
    | error why => simp [loadExpr, read] at loaded
    | ok source =>
      simp only [loadExpr, read] at loaded
      cases parsed : (Expr.parse source).mapError Error.exprParse with
      | error why => simp [parsed, Except.map] at loaded
      | ok document =>
        simp only [parsed, Except.map, Except.ok.injEq] at loaded
        exact loaded ▸ .file read (mapError_eq_ok_iff.1 parsed)
  · rintro ⟨read, parsed⟩
    simp [loadExpr, read, mapError_eq_ok_iff.2 parsed, Except.map]

theorem loadExpr_eq_error_iff : loadExpr files path = .error error ↔ ExprFails files path error := by
  constructor
  · intro fails
    cases read : files.read path with
    | error why =>
      simp only [loadExpr, read, Except.error.injEq] at fails
      exact fails ▸ .unread read
    | ok source =>
      simp only [loadExpr, read] at fails
      cases parsed : (Expr.parse source).mapError Error.exprParse with
      | error why =>
        obtain ⟨problem, refused, rfl⟩ := mapError_eq_error_iff.1 parsed
        simp only [parsed, Except.map, Except.error.injEq] at fails
        exact fails ▸ .unparsed read refused
      | ok document => simp [parsed, Except.map] at fails
  · intro fails
    cases fails with
    | unread read => simp [loadExpr, read]
    | unparsed read refused =>
      simp [loadExpr, read, mapError_eq_error_iff.2 ⟨_, refused, rfl⟩, Except.map]

/-! ## Up to the report -/

theorem prepare_of_schemaFails (fails : SchemaFails files schemaPath error) :
    prepare files (.compile path schemaPath d output) = .error error := by
  rw [prepare, loadSchema_eq_error_iff.2 fails]
  rfl

theorem prepare_of_exprFails (has : HasSchema files schemaPath s)
    (fails : ExprFails files path error) :
    prepare files (.compile path schemaPath d output) = .error error := by
  rw [prepare, loadSchema_eq_ok_iff.2 has, loadExpr_eq_error_iff.2 fails]
  rfl

/-- What a run has to deliver for a filter. -/
def delivery (path : String) (output : Option String) (f : Filter) : Delivery :=
  ⟨f.report.prettyText, output, Warning.ofFilter path f, f.errors.length⟩

/-- The schema is checked once more when the compiler is made, which never fails. -/
theorem compiler_eq_ok (valid : s.Valid) (d : Dialect) : compiler s d = .ok ⟨s, valid, d⟩ :=
  mapError_eq_ok_iff.2 (Compiler.ofSchema_of_valid valid d)

theorem prepare_of_compiles (compiles : Compiles files path schemaPath d f) :
    prepare files (.compile path schemaPath d output) = .ok (delivery path output f) := by
  obtain ⟨schema, expr⟩ := compiles
  rw [prepare, loadSchema_eq_ok_iff.2 schema, loadExpr_eq_ok_iff.2 expr]
  simp only [bind, Except.bind, compiler_eq_ok schema.valid]
  rfl

/-- Compilation is reached, or something before it fails. -/
theorem schemaFails_or_exprFails_or_compiles (files : Surroundings) (path : String)
    (schemaPath : Option String) (d : Dialect) :
    (∃ error, SchemaFails files schemaPath error) ∨
      (∃ s error, HasSchema files schemaPath s ∧ ExprFails files path error) ∨
      ∃ f, Compiles files path schemaPath d f := by
  cases schema : loadSchema files schemaPath with
  | error error => exact .inl ⟨error, loadSchema_eq_error_iff.1 schema⟩
  | ok s =>
    have has := loadSchema_eq_ok_iff.1 schema
    cases expr : loadExpr files path with
    | error error => exact .inr (.inl ⟨s, error, has, loadExpr_eq_error_iff.1 expr⟩)
    | ok e => exact .inr (.inr ⟨_, has, loadExpr_eq_ok_iff.1 expr⟩)

theorem Compiles.clause_isSome_iff (compiles : Compiles files path schemaPath d f) :
    f.clause.isSome = true ↔ f.errors = [] := by
  obtain ⟨schema, expr⟩ := compiles
  exact Compiler.clause_isSome_iff _ _

/-! ## From the report on -/

/-- The report could not be delivered. -/
theorem conclude_of_not_writable (path : String) (refused : ¬Writable files output) (f : Filter) :
    ∃ file why, output = some file ∧ files.write file = .error why ∧
      conclude (delivery path output f) files.write =
        ⟨1, "", none, Warning.ofFilter path f, some (.outputWrite file why)⟩ := by
  obtain ⟨file, rfl, missed⟩ : ∃ file, output = some file ∧ files.write file ≠ .ok () := by
    simpa [Writable] using refused
  cases answer : files.write file with
  | ok _ => exact absurd answer missed
  | error why => exact ⟨file, why, rfl, answer, by simp [conclude, delivery, answer, failed]⟩

theorem conclude_of_writable (writable : Writable files output) (f : Filter) :
    conclude (delivery path output f) files.write =
      ⟨if f.errors.length = 0 then 0 else 1,
        if output = none then f.report.prettyText ++ "\n" else "",
        output.map fun file => (file, f.report.prettyText), Warning.ofFilter path f,
        if f.errors.length = 0 then none else some (.compileFailed f.errors.length)⟩ := by
  cases output with
  | none => rfl
  | some file => simp [conclude, delivery, writable file rfl]

theorem Warning.ofFilter_eq (path : String) (f : Filter) :
    ofFilter path f = if f.errors.map CompileError.message = [] then []
      else .compiled (f.errors.map CompileError.message).length ::
        (f.errors.map CompileError.message).map (.error path) := by
  rw [ofFilter, ofCompiler, List.map_map, List.length_map]
  cases f.errors <;> rfl

theorem Warning.lines_ofFilter (path : String) (f : Filter) :
    (ofFilter path f).map line = if f.errors.map CompileError.message = [] then [] else
      ("Filter compiled with errors errors=" ++
          String.ofList (Text.natural (f.errors.map CompileError.message).length)) ::
        (f.errors.map CompileError.message).map fun m => Text.terminal (path ++ ": " ++ m) := by
  rw [ofFilter_eq]
  split
  · rfl
  · rw [List.map_cons, List.map_map]
    rfl

/-- No line steers the terminal that shows it. -/
theorem Warning.not_steers_of_mem_line {w : Warning} {c : Char} (mem : c ∈ w.line.toList) :
    ¬Text.Steers c := by
  cases w with
  | error path message =>
    exact Text.not_steers_of_mem_terminal (s := path ++ ": " ++ message) mem
  | compiled n =>
    have plain : ("Filter compiled with errors errors=".toList.all
        fun c => !decide (Text.Steers c)) = true := by decide +kernel
    have whole : c ∈ ("Filter compiled with errors errors=" ++
      String.ofList (Text.natural n)).toList := mem
    rw [String.toList_append] at whole
    rcases List.mem_append.1 whole with text | digit
    · simpa using List.all_eq_true.1 plain c text
    · rw [String.toList_ofList] at digit
      exact Text.not_steers_of_isDigit (Text.isDigit_of_mem_natural digit)

/-- What a run delivers with a report, `messages` being those of the errors in it. The text spells
the report. The compiler logs how many errors there are; after that each message is logged, behind
the path of the expression and as a terminal shows it. No line steers the terminal. -/
structure Outcome.Reports (o : Outcome) (path : String) (output : Option String) (report : Json)
    (messages : List String) : Prop where
  spelled : Json.Written report.spelling report.prettyText.toList
  printed : o.printed = if output = none then report.prettyText ++ "\n" else ""
  written : o.written = output.map fun file => (file, report.prettyText)
  errors : report.get? "errors" = some (.arr (messages.map .str))
  clause : report.get? "where_clause" = some .null ↔ messages ≠ []
  log : o.log = if messages = [] then [] else
    .compiled messages.length :: messages.map (.error path)
  lines : o.log.map Warning.line = if messages = [] then [] else
    ("Filter compiled with errors errors=" ++ String.ofList (Text.natural messages.length)) ::
      messages.map fun m => Text.terminal (path ++ ": " ++ m)
  fit : ∀ line ∈ o.log.map Warning.line, ∀ c ∈ line.toList, ¬Text.Steers c
  error : o.error = if messages = [] then none else some (.compileFailed messages.length)
  status : o.status = if messages = [] then 0 else 1

/-- One line is about each error. -/
theorem Outcome.Reports.warnings {o : Outcome} {report : Json} {messages : List String}
    (reports : o.Reports path output report messages) :
    o.warnings = messages.map fun m => Text.terminal (path ++ ": " ++ m) := by
  have all (ms : List String) : (ms.map (Warning.error path)).filter Warning.isError =
      ms.map (Warning.error path) := List.filter_eq_self.2 (by simp [Warning.isError])
  rw [Outcome.warnings, reports.log]
  split
  · next none => rw [none]; rfl
  · rw [List.filter_cons_of_neg (by simp [Warning.isError]), all, List.map_map]
    rfl

/-- Where nothing steers a terminal, the line is the message as it stands. -/
theorem Outcome.Reports.warnings_of_not_steers {o : Outcome} {report : Json}
    {messages : List String} (reports : o.Reports path output report messages)
    (plain : ∀ m ∈ messages, ∀ c ∈ (path ++ ": " ++ m).toList, ¬Text.Steers c) :
    o.warnings = messages.map fun m => path ++ ": " ++ m := by
  rw [reports.warnings]
  exact List.map_congr_left fun m hm => Text.terminal_of_not_steers (plain m hm)

theorem conclude_reports (complete : f.clause.isSome = true ↔ f.errors = [])
    (writable : Writable files output) :
    (conclude (delivery path output f) files.write).Reports path output f.report
      (f.errors.map CompileError.message) := by
  have none_iff : f.errors.map CompileError.message = [] ↔ f.errors.length = 0 := by
    rw [List.map_eq_nil_iff, List.length_eq_zero_iff]
  rw [conclude_of_writable writable]
  constructor
  case spelled =>
    rw [Json.prettyText, String.toList_ofList]
    exact Json.written_pretty f.report
  case printed | written => rfl
  case errors =>
    rw [Filter.report_errors, List.map_map]
    rfl
  case clause =>
    rw [Filter.report_clause_eq_null_iff, ne_eq, List.map_eq_nil_iff, ← complete,
      Bool.not_eq_true]
  case log => exact Warning.ofFilter_eq path f
  case lines => exact Warning.lines_ofFilter path f
  case fit =>
    intro line mem c in_line
    obtain ⟨w, -, rfl⟩ := List.mem_map.1 mem
    exact Warning.not_steers_of_mem_line in_line
  case error => simp only [none_iff, List.length_map]
  case status => simp only [none_iff]

/-! ## Runs -/

section

variable (asked : Request.ofArguments? arguments = some (.compile path schemaPath d output))
include asked

theorem run_of_prepare_error
    (fails : prepare files (.compile path schemaPath d output) = .error error) :
    run files arguments = ⟨1, "", none, [], some error⟩ := by
  simp only [run, asked, fails, failed]

theorem run_of_compiles (compiles : Compiles files path schemaPath d f) :
    run files arguments = conclude (delivery path output f) files.write := by
  simp only [run, asked, prepare_of_compiles compiles]

theorem run_status_eq_zero_iff : (run files arguments).status = 0 ↔
    ∃ f, Compiles files path schemaPath d f ∧ Writable files output ∧ f.errors = [] := by
  constructor
  · intro success
    obtain ⟨error, fails⟩ | ⟨s, error, has, fails⟩ | ⟨f, compiles⟩ :=
      schemaFails_or_exprFails_or_compiles files path schemaPath d
    · rw [run_of_prepare_error asked (prepare_of_schemaFails fails)] at success
      cases success
    · rw [run_of_prepare_error asked (prepare_of_exprFails has fails)] at success
      cases success
    · rw [run_of_compiles asked compiles] at success
      by_cases writable : Writable files output
      · rw [(conclude_reports compiles.clause_isSome_iff writable).status] at success
        split at success
        · next none => exact ⟨f, compiles, writable, List.map_eq_nil_iff.1 none⟩
        · cases success
      · obtain ⟨file, why, -, -, outcome⟩ := conclude_of_not_writable path writable f
        rw [outcome] at success
        cases success
  · rintro ⟨f, compiles, writable, errors⟩
    rw [run_of_compiles asked compiles,
      (conclude_reports compiles.clause_isSome_iff writable).status, errors]
    rfl

end

/-- **When a run succeeds, and what it comes to otherwise.** It succeeds exactly if there are a
schema, an expression, a place for the report and no errors in the filter. Without a schema, and
then without an expression, it delivers nothing and fails for just that; with both, and a place for
the report, it delivers the report whether or not the filter has errors. -/
theorem run_compile (files : Surroundings)
    (asked : Request.ofArguments? arguments = some (.compile path schemaPath d output)) :
    ((run files arguments).status = 0 ↔
      ∃ f, Compiles files path schemaPath d f ∧ Writable files output ∧ f.errors = []) ∧
    ((¬∃ s, HasSchema files schemaPath s) →
      ∃ error, SchemaFails files schemaPath error ∧
        run files arguments = ⟨1, "", none, [], some error⟩) ∧
    ((∃ s, HasSchema files schemaPath s) → (¬∃ e, HasExpr files path e) →
      ∃ error, ExprFails files path error ∧
        run files arguments = ⟨1, "", none, [], some error⟩) ∧
    ∀ f, Compiles files path schemaPath d f → Writable files output →
      (run files arguments).Reports path output f.report (f.errors.map CompileError.message) := by
  refine ⟨run_status_eq_zero_iff asked, ?_, ?_, ?_⟩
  · intro missing
    obtain ⟨error, fails⟩ | ⟨s, error, has, -⟩ | ⟨f, ⟨has, -⟩⟩ :=
      schemaFails_or_exprFails_or_compiles files path schemaPath d
    · exact ⟨error, fails, run_of_prepare_error asked (prepare_of_schemaFails fails)⟩
    · exact absurd ⟨s, has⟩ missing
    · exact absurd ⟨_, has⟩ missing
  · rintro ⟨s, has⟩ missing
    cases expr : loadExpr files path with
    | error error =>
      have fails := loadExpr_eq_error_iff.1 expr
      exact ⟨error, fails, run_of_prepare_error asked (prepare_of_exprFails has fails)⟩
    | ok e => exact absurd ⟨e, loadExpr_eq_ok_iff.1 expr⟩ missing
  · intro f compiles writable
    rw [run_of_compiles asked compiles]
    exact conclude_reports compiles.clause_isSome_iff writable

/-- Files of which one can be read and any can be written. -/
def onlyFile (name content : String) : Surroundings where
  read path := if path = name then FileError.decode content.toUTF8 else .error Directory.missing
  write _ := .ok ()

theorem compiles_onlyFile {name source : String} {messages : List String}
    (judged : ((Expr.parse source).toOption.map fun document =>
      ((Compiler.mk .default Schema.default_valid .questionMark).compile (Tree.ofExpr
        (.ofDocument document))).errors.map CompileError.message) = some messages) :
    ∃ f, Compiles (onlyFile name source) name none .questionMark f ∧
      f.errors.map CompileError.message = messages := by
  have read : (onlyFile name source).read name = .ok source := by
    simpa [onlyFile] using FileError.decode_eq_ok_iff.2 rfl
  cases parsed : Expr.parse source with
  | error why =>
    rw [parsed] at judged
    cases judged
  | ok document =>
    rw [parsed] at judged
    exact ⟨_, ⟨.default, .file read parsed⟩, Option.some.inj judged⟩

def faulty : String := "\x7b\"and\":[\x7b\"field\":\"it's\"\x7d,\"parameter\"]\x7d"

theorem run_compile_faulty :
    Request.ofArguments? ["compile", "--expr", "e.json", "--output=out.json"] =
        some (.compile "e.json" none .questionMark (some "out.json")) ∧
      ∃ (o : Outcome) (report : Json),
        run (onlyFile "e.json" faulty) ["compile", "--expr", "e.json", "--output=out.json"] = o ∧
        o.status = 1 ∧ o.error = some (.compileFailed 2) ∧
        o.written = some ("out.json", report.prettyText) ∧
        report.get? "where_clause" = some .null ∧
        o.log.map Warning.line = ["Filter compiled with errors errors=2",
          "e.json: Single quote not allowed in field name: it's",
          "e.json: Parameter expression not supported"] := by
  have asked : Request.ofArguments? ["compile", "--expr", "e.json", "--output=out.json"] =
    some (.compile "e.json" none .questionMark (some "out.json")) := by decide +kernel
  obtain ⟨f, compiles, messages⟩ : ∃ f, Compiles (onlyFile "e.json" faulty) "e.json" none
      .questionMark f ∧ f.errors.map CompileError.message =
        ["Single quote not allowed in field name: it's", "Parameter expression not supported"] :=
    compiles_onlyFile (by decide +kernel)
  obtain ⟨-, -, -, delivers⟩ := run_compile (onlyFile "e.json" faulty) asked
  have reports := delivers f compiles fun _ _ => rfl
  rw [messages] at reports
  exact ⟨asked, _, _, rfl, reports.status, reports.error, reports.written,
    reports.clause.2 (List.cons_ne_nil _ _), reports.lines.trans (by decide +kernel)⟩

def steering : String := "\x7b\"field\":\"\\u001b'\"\x7d"

/-- One error makes two lines, and what the terminal shows of the message is not the message. -/
theorem run_compile_steering :
    ∃ (o : Outcome) (report : Json) (message : String),
      run (onlyFile "e.json" steering) ["compile", "--expr", "e.json"] = o ∧
      o.printed = report.prettyText ++ "\n" ∧
      report.get? "errors" = some (.arr [.str message]) ∧
      o.error = some (.compileFailed 1) ∧ o.log.length ≠ 1 ∧
      ∀ w ∈ o.log, ¬message.toList <:+: w.line.toList := by
  have asked : Request.ofArguments? ["compile", "--expr", "e.json"] =
    some (.compile "e.json" none .questionMark none) := by decide +kernel
  obtain ⟨f, compiles, messages⟩ : ∃ f, Compiles (onlyFile "e.json" steering) "e.json" none
      .questionMark f ∧ f.errors.map CompileError.message =
        ["Single quote not allowed in field name: \x1b'"] := compiles_onlyFile (by decide +kernel)
  have reports : (run (onlyFile "e.json" steering) ["compile", "--expr", "e.json"]).Reports "e.json"
      none f.report (f.errors.map CompileError.message) := by
    rw [run_of_compiles asked compiles]
    exact conclude_reports compiles.clause_isSome_iff nofun
  rw [messages] at reports
  refine ⟨_, _, _, rfl, reports.printed, reports.errors, reports.error, ?_, ?_⟩
  · rw [reports.log]
    decide
  · rw [reports.log]
    decide +kernel

end RowFilter.Command
