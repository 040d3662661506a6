import Shading.CommandLine

/-!
# The program

Fetches the files and variables that a run reads, runs it, and writes what it gives.
-/

namespace Shading.CommandLine

def readText (path : String) : IO (Except ReadError String) := do
  try
    let bytes ← IO.FS.readBinFile path
    match String.fromUTF8? bytes with
    | some text => return .ok text
    | none => return .error .notText
  catch _ => return .error .missing

/-- The host of a run with the given arguments. -/
def fetchHost (arguments : List String) : IO Host := do
  let files ← (paths arguments).mapM fun path => return (path, ← readText path)
  let values ← variableNames.mapM fun name => return (name, ← IO.getEnv name)
  return {
    value? := fun name => (values.lookup name).join
    read := fun path => (files.lookup path).getD (.error .missing) }

def finish (outcome : Outcome) : IO UInt32 := do
  (← IO.getStdout).putStr outcome.output
  (← IO.getStderr).putStr outcome.errors
  return outcome.code

end Shading.CommandLine

def main (arguments : List String) : IO UInt32 := do
  let host ← Shading.CommandLine.fetchHost arguments
  Shading.CommandLine.finish (Shading.CommandLine.run host arguments)
