import RowFilter.Command.Report
import RowFilter.Command.Request
import RowFilter.Command.Warning
import RowFilter.Compile.Emission
import RowFilter.Expr.Document
import RowFilter.Schema.Reader
import RowFilter.Tree.Assembly

/-!
# Running the command

A run loads the schema, then the expression, and delivers a report. What it asks
of the file system is given to it, so that a run is a function.

* `prepare`: everything up to the report;
* `conclude`: what the run comes to, once it is known whether the report could be
  delivered;
* `run`: both. A filter with errors is reported in full before the run fails.
-/

namespace RowFilter

inductive Command.Error
  | exprFileRead (why : FileError)
  | exprParse (why : Json.Problem)
  | schema (why : Schema.Error)
  /-- The report cannot be written as JSON. -/
  | serialization
  | outputWrite (path : String) (why : FileError)
  | compileFailed (count : Nat)
  deriving Repr

namespace Command

/-- The message for an error; `inner` is what a reader or writer of a format said, where one did. -/
def Error.message (inner : String) : Error → String
  | .exprFileRead why => "Failed to read the expression file: " ++ why.cause
  | .exprParse _ => "Failed to parse the expression file as JSON: " ++ inner
  | .schema why => "Invalid storage schema: " ++ why.message inner
  | .serialization => "Failed to serialize data to JSON: " ++ inner
  | .outputWrite path why => "Failed to write output file " ++ path ++ ": " ++ why.cause
  | .compileFailed n => "Filter has " ++ String.ofList (Text.natural n) ++ " compile error(s)"

def Error.cause? (inner : String) : Error → Option String
  | .exprFileRead why => some why.cause
  | .exprParse _ => some inner
  | .schema why => some (why.message inner)
  | .serialization => none
  | .outputWrite _ why => some why.cause
  | .compileFailed _ => none

/-- What a run has to deliver. -/
structure Delivery where
  text : String
  /-- Where to: a file, or the standard output. -/
  destination : Option String
  log : List Warning
  /-- The number of errors of the filter. -/
  errors : Nat
  deriving Repr

/-- What a run came to. -/
structure Outcome where
  status : Nat
  printed : String
  /-- The file that was written and its content. -/
  written : Option (String × String)
  log : List Warning
  error : Option Error
  deriving Repr

/-- The lines that are logged about single errors. -/
def Outcome.warnings (o : Outcome) : List String := (o.log.filter Warning.isError).map Warning.line

def version : String := "criteria 0.1.0"

def loadSchema (files : Surroundings) : Option String → Except Error Schema
  | none => .ok .default
  | some path => (Schema.ofFile path (files.read path)).mapError .schema

def loadExpr (files : Surroundings) (path : String) : Except Error (Expr Value) :=
  match files.read path with
  | .error why => .error (.exprFileRead why)
  | .ok source => (Expr.parse source).mapError .exprParse |>.map Expr.ofDocument

def compiler (s : Schema) (d : Dialect) : Except Error Compiler :=
  (Compiler.ofSchema s d).mapError fun fault => .schema (.invalidIdentifier fault.1 fault.2)

/-- Does everything up to the report. -/
def prepare (files : Surroundings) : Request → Except Error Delivery
  | .version => .ok ⟨version, none, [], 0⟩
  | .schema path => do
    let schema ← loadSchema files path
    return ⟨schema.toJson.prettyText, none, [], 0⟩
  | .compile path schemaPath dialect output => do
    let schema ← loadSchema files schemaPath
    let expr ← loadExpr files path
    let filter := (← compiler schema dialect).compile (Tree.ofExpr expr)
    return ⟨filter.report.prettyText, output, Warning.ofFilter path filter, filter.errors.length⟩

def failed (log : List Warning) (e : Error) : Outcome := ⟨1, "", none, log, some e⟩

/-- What a run comes to, given whether its file could be written. A line printed has an end, a
file has none. -/
def conclude (d : Delivery) (write : String → Except FileError Unit) : Outcome :=
  let error := if d.errors = 0 then none else some (Error.compileFailed d.errors)
  let status := if d.errors = 0 then 0 else 1
  match d.destination with
  | none => ⟨status, d.text ++ "\n", none, d.log, error⟩
  | some path =>
    match write path with
    | .ok () => ⟨status, "", some (path, d.text), d.log, error⟩
    | .error why => failed d.log (.outputWrite path why)

/-- Runs the command; arguments that are not understood are an outcome of their own. -/
def run (files : Surroundings) (arguments : List String) : Outcome :=
  match Request.ofArguments? arguments with
  | none => ⟨2, "", none, [], none⟩
  | some request =>
    match prepare files request with
    | .error e => failed [] e
    | .ok delivery => conclude delivery files.write

end Command

end RowFilter
