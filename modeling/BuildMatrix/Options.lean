import BuildMatrix.Candidates
import BuildMatrix.Policy
import BuildMatrix.Registry.Exchange

/-!
# Options

Everything that a run of the program can be told, with the values that hold when it is told nothing.
-/

namespace BuildMatrix

/-- The options of a run. -/
structure Options where
  /-- The directory that holds the manifest. -/
  workingDirectory : String := "."
  /-- Seconds after which an attempt to reach the registry is given up. -/
  timeout : UInt64 := 10
  /-- Attempts to reach the registry after the first one. -/
  maxRetries : UInt32 := 3
  /-- Use the built-in candidates without asking the registry. -/
  offline : Bool := false
  /-- The lowest release cycle taken from the registry. -/
  minVersion : Version := Candidates.defaultFloor
  /-- Where the registry is asked. -/
  lifecycleUrl : String := Registry.defaultUrl
  /-- What is done about versions past their end of life. -/
  endOfLifeMode : EndOfLifeMode := .warn
  /-- The day that end of life is judged on; the current day if not given. -/
  today : Option Date := none
  /-- Write one JSON document instead of text. -/
  json : Bool := false
  /-- Say more on the error stream. -/
  verbose : Bool := false
  /-- Do not warn on the error stream. -/
  quiet : Bool := false
deriving DecidableEq

/-- How much is said on the error stream. -/
inductive Verbosity where
  | normal
  | quiet
  | verbose
deriving DecidableEq

/-- The form of the results. -/
inductive OutputFormat where
  | text
  | json
deriving DecidableEq

/-- The verbosity that two flags ask for; quiet wins. -/
def Verbosity.ofFlags (verbose quiet : Bool) : Verbosity :=
  if quiet then .quiet else if verbose then .verbose else .normal

/-- The form that a flag asks for. -/
def OutputFormat.ofFlag (json : Bool) : OutputFormat :=
  if json then .json else .text

end BuildMatrix
