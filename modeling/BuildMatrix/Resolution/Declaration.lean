import BuildMatrix.Constraint.Evaluation
import BuildMatrix.Manifest.Classifier
import BuildMatrix.Manifest.Location
import BuildMatrix.Policy

/-!
# Resolving a declaration

A manifest text is resolved against candidate versions: by its constraint if it declares one that
selects something, else by its classifiers. When neither selects anything, the constraint's own
failure is reported if there is a constraint, and otherwise whether there were classifiers at all.
-/

namespace BuildMatrix

/-- What selected the versions. -/
inductive DeclaredBy where
  /-- The declared constraint. -/
  | constraint (declared : DeclaredConstraint)
  /-- The classifiers. -/
  | classifiers
deriving DecidableEq

/-- Causes for which a run cannot start. -/
inductive ConfigError where
  /-- The working directory is something else. -/
  | notDirectory (path : String)
deriving DecidableEq

/-- The user-facing text of a configuration failure. -/
def ConfigError.message : ConfigError → String
  | .notDirectory path => s!"invalid path '{path}': not a directory"

/-- Causes for which a run yields no resolution. -/
inductive Failure where
  /-- The manifest cannot be found or read. -/
  | manifest (cause : ManifestError)
  /-- The constraint cannot be read or selects nothing. -/
  | constraint (cause : ConstraintError)
  /-- Nothing is left to build with, or something past its end of life. -/
  | resolve (cause : ResolveError)
  /-- The options cannot be followed. -/
  | config (cause : ConfigError)
  /-- There is no highest version. -/
  | version (cause : VersionError)
deriving DecidableEq

namespace Failure

/-- The user-facing text of a failure. -/
def message : Failure → String
  | manifest cause => cause.message
  | constraint cause => cause.message
  | resolve cause => cause.message
  | config cause => cause.message
  | version cause => cause.message

/-- The failure is a malformed constraint, rather than one that selects nothing. -/
def isMalformedConstraint : Failure → Bool
  | constraint cause => cause.isMalformed
  | _ => false

end Failure

namespace Resolution

/-- The candidates among the versions of a manifest text's classifiers. -/
def classified (content : String) (candidates : VersionSet) : VersionSet :=
  VersionSet.ofList ((Manifest.classifiers content).filter fun version => version ∈ candidates)

/-- What the classifiers of a manifest text select; `failure?` is that of its constraint. -/
def byClassifiers (content path : String) (candidates : VersionSet)
    (failure? : Option ConstraintError) : Except Failure (VersionSet × DeclaredBy) :=
  let selected := classified content candidates
  if selected.isEmpty then
    match failure? with
    | some failure => .error (.constraint failure)
    | none =>
      if (Manifest.classifiers content).isEmpty then .error (.manifest (.noVersionInfo path))
      else .error (.resolve (.noMatchingVersions .classifiers))
  else .ok (selected, .classifiers)

/-- The versions that a manifest text selects among candidates; `path` is named in failures only. -/
def ofDeclaration (content path : String) (candidates : VersionSet) :
    Except Failure (VersionSet × DeclaredBy) :=
  match Manifest.constraint? content with
  | none => byClassifiers content path candidates none
  | some declared =>
    match Constraint.resolve declared.expression candidates with
    | .ok selected => .ok (selected, .constraint declared)
    | .error failure => byClassifiers content path candidates (some failure)

end Resolution

end BuildMatrix
