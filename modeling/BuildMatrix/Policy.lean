import BuildMatrix.Calendar.Reading
import BuildMatrix.Candidates

/-!
# End-of-life policy

Resolved versions that are past their end of life are kept with a warning, stripped with a warning,
or make the run fail. All three judge the same versions, in ascending order; a version about which
nothing is known is never among them.
-/

namespace BuildMatrix

/-- What is done about versions past their end of life. -/
inductive EndOfLifeMode where
  /-- Keep them and warn. -/
  | warn
  /-- Remove them and warn. -/
  | strip
  /-- Fail. -/
  | fail
deriving DecidableEq

namespace EndOfLifeMode

/-- The word for a mode. -/
def name : EndOfLifeMode → String
  | warn => "warn"
  | strip => "strip"
  | fail => "fail"

/-- All modes. -/
def all : List EndOfLifeMode :=
  [warn, strip, fail]

/-- The mode with this very word. -/
def ofName? (text : String) : Option EndOfLifeMode :=
  all.find? fun mode => mode.name = text

/-- A text with its ASCII capitals lowered. -/
def lowered (text : String) : List Char :=
  text.toList.map Char.toLower

/-- The mode with this word, ASCII capitals allowed. -/
def ofNameIgnoringCase? (text : String) : Option EndOfLifeMode :=
  all.find? fun mode => lowered mode.name = lowered text

end EndOfLifeMode

/-- A resolved version that is past its end of life. -/
structure EndOfLife where
  /-- The version. -/
  version : Version
  /-- The scheduled day, where it is known. -/
  date : Option Date
deriving DecidableEq

/-- The user-facing text about a version past its end of life. -/
def EndOfLife.text (found : EndOfLife) : String :=
  match found.date with
  | some date => s!"Python {found.version.render} reached end-of-life on {date.render}"
  | none => s!"Python {found.version.render} has reached end-of-life"

/-- What a warning says was done about a version. -/
inductive EndOfLifeAction where
  /-- It is still among the versions. -/
  | kept
  /-- It is no longer among them. -/
  | removed
deriving DecidableEq

/-- The words of a warning for what was done. -/
def EndOfLifeAction.remark : EndOfLifeAction → String
  | .kept => " (kept)"
  | .removed => " (removed)"

/-- A warning about a version past its end of life. -/
structure EndOfLifeWarning where
  /-- The version. -/
  version : Version
  /-- The scheduled day, where it is known. -/
  date : Option Date
  /-- What was done about the version. -/
  action : EndOfLifeAction
deriving DecidableEq

/-- The user-facing text of a warning. -/
def EndOfLifeWarning.text (warning : EndOfLifeWarning) : String :=
  let past := match warning.date with
    | some date => s!"Python {warning.version.render} reached end-of-life on {date.render}"
    | none => s!"Python {warning.version.render} has reached end-of-life"
  past ++ warning.action.remark

/-- What a selection that came out empty selected from. -/
inductive EmptySelection where
  /-- The manifest's classifiers. -/
  | classifiers
  /-- The resolved versions without those past their end of life. -/
  | supported
deriving DecidableEq

/-- Causes for which well-formed declarations yield no versions. -/
inductive ResolveError where
  /-- Nothing was left. -/
  | noMatchingVersions (selection : EmptySelection)
  /-- Versions past their end of life where none is allowed. -/
  | endOfLife (violations : List EndOfLife)
deriving DecidableEq

/-- The words for an empty selection. -/
def EmptySelection.description : EmptySelection → String
  | .classifiers => "the version classifiers"
  | .supported => "the declared range once end-of-life versions are removed"

/-- The user-facing text of a resolution failure. -/
def ResolveError.message : ResolveError → String
  | .noMatchingVersions selection =>
    s!"no supported Python versions match {selection.description}"
  | .endOfLife violations =>
    let count := violations.length
    let versions := String.intercalate ", " (violations.map fun found => found.version.render)
    s!"{count} resolved version(s) past end-of-life: {versions}"

namespace Policy

/-- What a policy makes of resolved versions. -/
structure Outcome where
  /-- The versions that remain. -/
  versions : VersionSet
  /-- The warnings, lowest version first. -/
  warnings : List EndOfLifeWarning
deriving DecidableEq

/-- The resolved versions past their end of life, lowest first. -/
def expired (resolved : VersionSet) (candidates : Candidates) (today : Date) : List EndOfLife :=
  resolved.toList.filterMap fun version =>
    (candidates.lifecycle? version).bind fun lifecycle =>
      if lifecycle.isEndOfLife today then some ⟨version, lifecycle.date?⟩ else none

/-- The same warning about each of the versions found. -/
def warnings (action : EndOfLifeAction) (found : List EndOfLife) : List EndOfLifeWarning :=
  found.map fun past => ⟨past.version, past.date, action⟩

/-- Apply a mode to resolved versions on a day. -/
def apply (mode : EndOfLifeMode) (resolved : VersionSet) (candidates : Candidates) (today : Date) :
    Except ResolveError Outcome :=
  match expired resolved candidates today with
  | [] => .ok ⟨resolved, []⟩
  | found =>
    match mode with
    | .warn => .ok ⟨resolved, warnings .kept found⟩
    | .fail => .error (.endOfLife found)
    | .strip =>
      let remaining := resolved.filter fun version => !found.any fun past => past.version = version
      if remaining.isEmpty then .error (.noMatchingVersions .supported)
      else .ok ⟨remaining, warnings .removed found⟩

end Policy

end BuildMatrix
