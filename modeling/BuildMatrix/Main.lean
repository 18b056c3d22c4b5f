import BuildMatrix.Command.Session
import Std.Time.Date.PlainDate
import Std.Time.DateTime.Timestamp

/-!
# The program

The outer layer: it takes the arguments, the environment, the files that a run looks at and the
current day, and shows the session that they determine. It has no way to reach a network, so the
registry always fails here and versions are resolved against the built-in candidates.
-/

namespace BuildMatrix.Console

/-- The values of the environment variables that settings may come from. -/
def environment : IO (String → Option String) := do
  let values ← (Command.Setting.all.filterMap Command.Setting.environmentName?).mapM fun name =>
    return (name, ← IO.getEnv name)
  return fun name => (values.lookup name).join

/-- What a path leads to; whatever cannot be opened counts as missing. -/
def lookUp (path : String) : IO Storage.Found := do
  match ← (IO.FS.readBinFile path).toBaseIO with
  | .ok content => return .file content.toList
  | .error (.inappropriateType _ 21 _) => return .directory
  | .error (.inappropriateType _ _ _) => return .blocked
  | .error _ => return .missing

/-- What each of some paths leads to. -/
def snapshot (paths : List String) : IO Storage.Files := do
  let found ← paths.mapM fun path => return (path, ← lookUp path)
  return fun path => (found.lookup path).getD .missing

/-- The current day in universal time. -/
def today : IO Date := do
  let day := Std.Time.PlainDate.ofEpochDay (← Std.Time.Timestamp.now).toDaysSinceUnixEpoch
  let date? := Date.ofNumbers? day.year.toInt day.month.val.toNat day.day.val.toNat
  return date?.getD ⟨1970, 1, 1, by decide⟩

end BuildMatrix.Console

open BuildMatrix in
/-- Show the session of a command line. -/
def main (arguments : List String) : IO UInt32 := do
  let environment ← Console.environment
  let paths :=
    match Command.parse arguments environment with
    | .ok options => Resolution.paths options.workingDirectory
    | .error _ => []
  let (session, _) := Command.session arguments environment (← Console.snapshot paths)
    (fun _ => some (.failing (.network "no connection"))) (← Console.today)
  (← IO.getStderr).putStr (String.join (session.remarks.map fun line => line ++ "\n"))
  (← IO.getStdout).putStr session.output
  return session.exitCode.toUInt32
