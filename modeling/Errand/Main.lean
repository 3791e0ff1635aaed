/-
# The program

The outer layer: it collects arguments, variables and the configuration file, and
prints the report.
-/
import Errand.Machine.Surroundings

namespace Errand.Program

open CommandLine

/-- The variables that the program looks at. -/
def variableNames : List String :=
  ["PATH", "HOME", "USER", "LOGNAME", "USERNAME", "LC_ALL", "RUST_LOG", "FLEET_SHELL_HOST",
   "FLEET_SHELL_USER", "FLEET_SHELL_PASSWORD", "FLEET_SHELL_PORT", "FLEET_SHELL_LOG_LEVEL"]

/-- The variables that are set. -/
def readVariables : IO ProcessVariables := do
  let found ← variableNames.mapM fun name => do
    return (← IO.getEnv name).map fun value =>
      (Utf8.encode name.toList, Utf8.encode value.toList)
  return found.filterMap id

/-- The fault of reading a file. -/
def faultOf : IO.Error → OsFault
  | .permissionDenied .. => .permissionDenied
  | .inappropriateType .. => .isDirectory
  | _ => .notFound

/-- The bytes of a file. -/
def readFile (path : Text) : IO (Except OsFault (List UInt8)) := do
  try
    let contents ← IO.FS.readBinFile path.toString
    return .ok contents.toList
  catch fault => return .error (faultOf fault)

/-- Print a report. -/
def printReport (report : Report) : IO UInt32 := do
  for entry in report.log do IO.eprintln entry.toString
  IO.print report.stdout.toString
  IO.eprint report.stderr.toString
  return UInt32.ofNat report.code

/-- Carry out what the arguments ask for. -/
def run (words : List Text) : IO UInt32 := do
  match plan (words.map Utf8.encode) with
  | .report report => printReport report
  | .run arguments =>
    let vars ← readVariables
    let file ← arguments.config.mapM readFile
    printReport (carryOut (Machine.surroundings Machine.workPlace vars) file arguments)

end Errand.Program

/-- The entry point of the program. -/
def main (args : List String) : IO UInt32 := Errand.Program.run (args.map String.toList)
