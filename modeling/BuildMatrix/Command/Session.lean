import BuildMatrix.Command.Line
import BuildMatrix.Program
import BuildMatrix.Report

/-!
# Sessions

A session is what the program shows for one command line: an exit code, the text on standard output
and the lines on the error stream. Standard output holds the whole report of a successful run and
nothing else; a failed run leaves it empty. How much is said on the error stream changes neither of
the two.
-/

namespace BuildMatrix.Command

/-- What the program shows. -/
structure Session where
  /-- Zero for success. -/
  exitCode : UInt8
  /-- The text on standard output. -/
  output : String
  /-- The lines on the error stream. -/
  remarks : List String
deriving DecidableEq

namespace Session

/-- The remarks before a run. -/
def opening (options : Options) : List String :=
  if options.verbose then
    [s!"{Program.name} v{Program.version}",
      s!"Working directory: {options.workingDirectory}",
      s!"End-of-life mode: {options.endOfLifeMode.name}"]
  else []

/-- The remarks after a successful run. -/
def closing (options : Options) (resolution : Resolution) : List String :=
  (if options.quiet then []
    else resolution.warnings.map fun warning => s!"warning: {warning.text}") ++
  (if options.verbose then
    [s!"Resolved from {resolution.manifestPath} using {resolution.origin.name} release data"]
    else [])

/-- The remarks after a failed run: every violation of the end-of-life policy, then the failure. -/
def complaint (failure : Failure) : List String :=
  (match failure with
    | .resolve (.endOfLife violations) => violations.map fun found => s!"error: {found.text}"
    | _ => []) ++
  [s!"Error: {failure.message}"]

/-- The session of a run. -/
def ofResult (options : Options) (result : Except Failure Resolution) : Session :=
  match result with
  | .ok resolution =>
    { exitCode := 0
      output := Report.render (.ofFlag options.json) resolution
      remarks := opening options ++ closing options resolution }
  | .error failure =>
    { exitCode := 1
      output := ""
      remarks := opening options ++ complaint failure }

/-- How the program is used. -/
def usage : String :=
  let settings := Setting.all.map fun setting =>
    "  --" ++ setting.name ++ (if setting.isSwitch then "" else " VALUE")
  let notices := Notice.all.map fun notice => "  --" ++ notice.name
  let heading := [s!"Usage: {Program.name} [OPTIONS]", "", "Options:"]
  String.join ((heading ++ settings ++ notices).map fun line => line ++ "\n")

/-- The session of a command line that asks for no run. -/
def ofStop : Stop → Session
  | .notice .help => ⟨0, usage, []⟩
  | .notice .version => ⟨0, Program.banner ++ "\n", []⟩
  | .misuse error => ⟨2, "", [s!"error: {error.message}"]⟩

end Session

/-- The session of a command line, and the requests that its run sends. The source of release
cycles may depend on the options; `today` is the day for runs that are not told one. -/
def session (arguments : List String) (environment : String → Option String)
    (files : Storage.Files) (source : Options → Option Registry.Source) (today : Date) :
    Session × List Registry.Request :=
  match parse arguments environment with
  | .error stop => (.ofStop stop, [])
  | .ok options =>
    let (result, requests) :=
      Resolution.run options files (source options) (options.today.getD today)
    (.ofResult options result, requests)

end BuildMatrix.Command
