import LiteralSql.CommandLine.Run

/-! The program: reads what a run needs, and prints its report.

It has no connection of its own, so requests end as they do while the endpoint
cannot be reached.
-/

set_option autoImplicit false

open LiteralSql

def fileError : IO.Error → FileError
  | .noFileOrDirectory .. => .missing
  | .permissionDenied .. => .permissionDenied
  | .inappropriateType _ code _ => if code = 21 then .isADirectory else .notADirectory
  | error => .other (toString error).toList

def readFileText (path : Text) : IO (Except FileError Text) := do
  try
    let content ← IO.FS.readBinFile (String.ofList path)
    match Utf8.decode? content.toList with
    | some text => return .ok text
    | none => return .error .notText
  catch error => return .error (fileError error)

def readVariables (names : List String) : IO (List (Text × Text)) := do
  let found ← names.mapM fun name => do
    return (← IO.getEnv name).map fun value => (name.toList, value.toList)
  return found.filterMap id

def main (arguments : List String) : IO UInt32 := do
  let given := arguments.map String.toList
  let environment ← readVariables ["CARTO_USER", "CARTO_API_KEY", "CARTO_BASE_URL"]
  let paths := match Arguments.read environment given with
    | .ok read => read.paths
    | .error _ => []
  let files ← paths.mapM fun path => do return (path, ← readFileText path)
  let read (path : Text) := (files.lookup path).getD (.error .missing)
  let (report, _) := (CommandLine.run ⟨environment, read⟩ given).run { link := .offline }
  (← IO.getStdout).putStr (String.ofList report.output)
  let errors ← IO.getStderr
  errors.putStr (String.ofList report.progress)
  if let some message := report.error then errors.putStrLn (String.ofList message)
  return report.exitCode.toUInt32
