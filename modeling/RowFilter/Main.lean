import RowFilter.Command.Run

namespace RowFilter.CommandLine

def fileError : IO.Error → FileError
  | .noFileOrDirectory .. => Directory.missing
  | e => ⟨.other, toString e⟩

def readText (path : String) : IO (Except FileError String) := do
  try return FileError.decode (← IO.FS.readBinFile path)
  catch e => return .error (fileError e)

def writeText (path text : String) : IO (Except FileError Unit) := do
  try
    IO.FS.writeFile path text
    return .ok ()
  catch e => return .error (fileError e)

/-- The answers to what a run may read, gathered beforehand. -/
def gather (paths : List String) : IO (String → Except FileError String) := do
  let answers ← paths.mapM fun path => return (path, ← readText path)
  return fun path => (answers.lookup path).getD (.error Directory.missing)

/-- Warnings and the error go to the error stream, the rest to the output. -/
def report (outcome : Command.Outcome) : IO UInt32 := do
  for warning in outcome.log do IO.eprintln ("WARN " ++ warning.line)
  IO.print outcome.printed
  if let some e := outcome.error then
    IO.eprintln ("Error: " ++ e.message "not of the expected form")
  return UInt32.ofNat outcome.status

def usage : String :=
  "usage: criteria compile --expr FILE [--schema FILE] [--dialect question-mark|postgres]" ++
    " [--output FILE]\n       criteria schema [--schema FILE]\n       criteria --version"

def runMain (arguments : List String) : IO UInt32 := do
  match Request.ofArguments? arguments with
  | none =>
    IO.eprintln usage
    return 2
  | some request =>
    let read ← gather request.inputs
    match Command.prepare ⟨read, fun _ => .ok ()⟩ request with
    | .error e => report (Command.failed [] e)
    | .ok delivery =>
      let written ← match delivery.destination with
        | some path => writeText path delivery.text
        | none => pure (.ok ())
      report (Command.conclude delivery fun _ => written)

end RowFilter.CommandLine

def main (arguments : List String) : IO UInt32 := RowFilter.CommandLine.runMain arguments
