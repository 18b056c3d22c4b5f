import BuildMatrix.Command.Setting
import BuildMatrix.Options
import BuildMatrix.Text.Literal

/-!
# Choices

The settings that have been given a value so far. A value is read as its setting asks for, and a
setting takes only one on the command line. Options are the choices, with the defaults where
nothing was chosen.
-/

namespace BuildMatrix.Command

/-- Causes for which a command line or an environment is refused. -/
inductive UsageError where
  /-- An argument is neither a known name nor the value of one. -/
  | unknownArgument (argument : String)
  /-- A name that takes no value has one attached. -/
  | unneededValue (argument : String)
  /-- A setting lacks its value. -/
  | missingValue (setting : Setting)
  /-- The value is not among those allowed. -/
  | valueNotAllowed (setting : Setting) (value : String)
  /-- The value cannot be read. -/
  | malformedValue (setting : Setting) (value : String)
  /-- A setting is given twice. -/
  | repeatedSetting (setting : Setting)
  /-- The run is to be both verbose and quiet. -/
  | verboseAndQuiet
deriving DecidableEq

/-- The user-facing text of a usage error. -/
def UsageError.message : UsageError → String
  | .unknownArgument argument => s!"unexpected argument '{argument}'"
  | .unneededValue argument => s!"'{argument}' takes no value"
  | .missingValue setting => s!"a value is required for '--{setting.name}'"
  | .valueNotAllowed setting value => s!"invalid value '{value}' for '--{setting.name}'"
  | .malformedValue setting value => s!"invalid value '{value}' for '--{setting.name}'"
  | .repeatedSetting setting => s!"'--{setting.name}' cannot be given twice"
  | .verboseAndQuiet => "'--verbose' cannot be given with '--quiet'"

/-- The number below `bound` that a text spells, a leading plus sign allowed. -/
def readCount? (bound : Nat) (text : List Char) : Option Nat :=
  let digits := (Text.after? ['+'] text).getD text
  (Text.readNumeral? digits).filter (· < bound)

/-- The number below `bound` that a text spells, a leading sign allowed; only zero may be negative.
-/
def readSignedCount? (bound : Nat) (text : List Char) : Option Nat :=
  match Text.after? ['-'] text with
  | some digits => (Text.readNumeral? digits).filter (· = 0)
  | none => readCount? bound text

/-- The truth value that a text spells. -/
def readSwitch? (text : String) : Option Bool :=
  if text = "true" then some true else if text = "false" then some false else none

/-- What has been chosen for each setting. -/
structure Choices where
  /-- The directory that holds the manifest. -/
  workingDirectory : Option String := none
  /-- The seconds after which an attempt is given up. -/
  timeout : Option UInt64 := none
  /-- The attempts after the first one. -/
  maxRetries : Option UInt32 := none
  /-- Whether the registry is left alone. -/
  offline : Option Bool := none
  /-- The lowest release cycle taken. -/
  minVersion : Option Version := none
  /-- The address of the registry. -/
  lifecycleUrl : Option String := none
  /-- What is done about versions past their end of life. -/
  endOfLifeMode : Option EndOfLifeMode := none
  /-- The day that end of life is judged on. -/
  today : Option Date := none
  /-- Whether one JSON document is written. -/
  json : Option Bool := none
  /-- Whether more is said. -/
  verbose : Option Bool := none
  /-- Whether warnings are left out. -/
  quiet : Option Bool := none
deriving DecidableEq

namespace Choices

/-- A value has been chosen for a setting. -/
def isGiven (choices : Choices) : Setting → Bool
  | .workingDirectory => choices.workingDirectory.isSome
  | .timeout => choices.timeout.isSome
  | .maxRetries => choices.maxRetries.isSome
  | .offline => choices.offline.isSome
  | .minVersion => choices.minVersion.isSome
  | .lifecycleUrl => choices.lifecycleUrl.isSome
  | .endOfLifeMode => choices.endOfLifeMode.isSome
  | .today => choices.today.isSome
  | .json => choices.json.isSome
  | .verbose => choices.verbose.isSome
  | .quiet => choices.quiet.isSome

/-- The choices with the value that a text spells for a setting; nothing if it spells none. -/
def assign? (choices : Choices) (setting : Setting) (text : String) : Option Choices :=
  match setting with
  | .workingDirectory =>
    if text.isEmpty then none else some { choices with workingDirectory := some text }
  | .timeout =>
    (readCount? UInt64.size text.toList).map fun value =>
      { choices with timeout := some (UInt64.ofNat value) }
  | .maxRetries =>
    (readSignedCount? UInt32.size text.toList).map fun value =>
      { choices with maxRetries := some (UInt32.ofNat value) }
  | .offline => (readSwitch? text).map fun value => { choices with offline := some value }
  | .minVersion =>
    (Version.parse text).toOption.map fun value => { choices with minVersion := some value }
  | .lifecycleUrl => some { choices with lifecycleUrl := some text }
  | .endOfLifeMode =>
    (EndOfLifeMode.ofName? text).map fun value => { choices with endOfLifeMode := some value }
  | .today => (Date.parse? text).map fun value => { choices with today := some value }
  | .json => (readSwitch? text).map fun value => { choices with json := some value }
  | .verbose => (readSwitch? text).map fun value => { choices with verbose := some value }
  | .quiet => (readSwitch? text).map fun value => { choices with quiet := some value }

/-- Why a text is refused as the value of a setting: numbers, versions and dates are malformed, any
other value is one that is not allowed. -/
def refusal (setting : Setting) (text : String) : UsageError :=
  match setting with
  | .timeout | .maxRetries | .minVersion | .today => .malformedValue setting text
  | _ => .valueNotAllowed setting text

/-- The choices with the value that a text spells for a setting. -/
def assign (choices : Choices) (setting : Setting) (text : String) : Except UsageError Choices :=
  match choices.assign? setting text with
  | some choices => .ok choices
  | none => .error (refusal setting text)

/-- The choices after a setting was given on the command line, where it needs a value and may be
given once. -/
def give (choices : Choices) (setting : Setting) (text? : Option String) :
    Except UsageError Choices :=
  match text? with
  | none => .error (.missingValue setting)
  | some text =>
    if choices.isGiven setting then .error (.repeatedSetting setting)
    else choices.assign setting text

/-- The options that choices amount to. -/
def options (choices : Choices) : Options :=
  let defaults : Options := {}
  { workingDirectory := choices.workingDirectory.getD defaults.workingDirectory
    timeout := choices.timeout.getD defaults.timeout
    maxRetries := choices.maxRetries.getD defaults.maxRetries
    offline := choices.offline.getD defaults.offline
    minVersion := choices.minVersion.getD defaults.minVersion
    lifecycleUrl := choices.lifecycleUrl.getD defaults.lifecycleUrl
    endOfLifeMode := choices.endOfLifeMode.getD defaults.endOfLifeMode
    today := choices.today.orElse fun _ => defaults.today
    json := choices.json.getD defaults.json
    verbose := choices.verbose.getD defaults.verbose
    quiet := choices.quiet.getD defaults.quiet }

end Choices

end BuildMatrix.Command
