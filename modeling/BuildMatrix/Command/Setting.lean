/-!
# Settings

The names of everything that can be set on the command line or through the environment. A setting
has a long name; some have a letter as well, and some an environment variable. A switch is set by
its name alone, every other setting takes a value. Two more names ask for a notice in place of a
run.
-/

namespace BuildMatrix.Command

/-- Something that can be set. -/
inductive Setting where
  | workingDirectory
  | timeout
  | maxRetries
  | offline
  | minVersion
  | lifecycleUrl
  | endOfLifeMode
  | today
  | json
  | verbose
  | quiet
deriving DecidableEq

namespace Setting

/-- All settings; environment variables are read in this order. -/
def all : List Setting :=
  [workingDirectory, timeout, maxRetries, offline, minVersion, lifecycleUrl, endOfLifeMode, today,
    json, verbose, quiet]

/-- The name that follows two hyphens. -/
def name : Setting → String
  | workingDirectory => "working-directory"
  | timeout => "timeout"
  | maxRetries => "max-retries"
  | offline => "offline"
  | minVersion => "min-version"
  | lifecycleUrl => "lifecycle-url"
  | endOfLifeMode => "eol-mode"
  | today => "today"
  | json => "json"
  | verbose => "verbose"
  | quiet => "quiet"

/-- The letter that follows one hyphen. -/
def letter? : Setting → Option Char
  | workingDirectory => some 'C'
  | verbose => some 'v'
  | quiet => some 'q'
  | _ => none

/-- Set by its name alone. -/
def isSwitch : Setting → Bool
  | offline | json | verbose | quiet => true
  | _ => false

/-- The environment variable that sets it. -/
def environmentName? : Setting → Option String
  | workingDirectory => some "INPUT_WORKING_DIRECTORY"
  | timeout => some "INPUT_TIMEOUT"
  | maxRetries => some "INPUT_MAX_RETRIES"
  | offline => some "INPUT_OFFLINE"
  | minVersion => some "INPUT_MIN_VERSION"
  | lifecycleUrl => some "INPUT_LIFECYCLE_URL"
  | endOfLifeMode => some "INPUT_EOL_MODE"
  | today => some "INPUT_TODAY"
  | json | verbose | quiet => none

/-- Every setting is listed. -/
theorem mem_all (setting : Setting) : setting ∈ all := by
  cases setting <;> decide

end Setting

/-- Something that is shown in place of a run. -/
inductive Notice where
  | help
  | version
deriving DecidableEq

namespace Notice

/-- All notices. -/
def all : List Notice :=
  [help, version]

/-- The name that follows two hyphens. -/
def name : Notice → String
  | help => "help"
  | version => "version"

/-- The letter that follows one hyphen. -/
def letter : Notice → Char
  | help => 'h'
  | version => 'V'

end Notice

/-- What a name on the command line stands for. -/
inductive Named where
  /-- A setting of a run. -/
  | setting (setting : Setting)
  /-- A question about the program. -/
  | notice (notice : Notice)
deriving DecidableEq

/-- What a long name stands for; names may not be shortened. -/
def Named.ofName? (name : String) : Option Named :=
  match Setting.all.find? fun setting => setting.name = name with
  | some found => some (.setting found)
  | none => (Notice.all.find? fun notice => notice.name = name).map .notice

/-- What a letter stands for. -/
def Named.ofLetter? (letter : Char) : Option Named :=
  match Setting.all.find? fun setting => setting.letter? = some letter with
  | some found => some (.setting found)
  | none => (Notice.all.find? fun notice => notice.letter = letter).map .notice

end BuildMatrix.Command
