import BuildMatrix.Candidates.Acquisition
import BuildMatrix.Options
import BuildMatrix.Resolution.Declaration

/-!
# Runs

A run takes the manifest of the working directory, acquires candidates, resolves the declaration
and applies the end-of-life policy. The manifest is read before the registry is asked, so a run
without a readable manifest sends nothing.
-/

namespace BuildMatrix

/-- What a successful run publishes. -/
structure Resolution where
  /-- The versions to build with. -/
  versions : VersionSet
  /-- The highest of them. -/
  buildVersion : Version
  /-- What selected them. -/
  declaredBy : DeclaredBy
  /-- Where the candidates came from. -/
  origin : CandidateOrigin
  /-- The warnings about versions past their end of life. -/
  warnings : List EndOfLifeWarning
  /-- The manifest's path. -/
  manifestPath : String
deriving DecidableEq

namespace Resolution

/-- The path and text of the manifest of a working directory. -/
def manifest (files : Storage.Files) (directory : String) : Except Failure (String × String) :=
  match files directory with
  | .file _ => .error (.config (.notDirectory directory))
  | _ =>
    match Manifest.locate files directory with
    | .error failure => .error (.manifest failure)
    | .ok path =>
      match Manifest.read files path with
      | .error failure => .error (.manifest failure)
      | .ok content => .ok (path, content)

/-- The paths that a run looks at, its working directory and the manifest in it. -/
def paths (directory : String) : List String :=
  [directory, Storage.join directory Manifest.fileName]

/-- The resolution of a manifest text against candidates on a day. -/
def ofManifest (options : Options) (path content : String) (candidates : Candidates)
    (today : Date) : Except Failure Resolution := do
  let (selected, declaredBy) ← ofDeclaration content path candidates.versions
  let outcome ←
    (Policy.apply options.endOfLifeMode selected candidates today).mapError Failure.resolve
  let buildVersion ← outcome.versions.max.mapError Failure.version
  return { versions := outcome.versions, buildVersion, declaredBy, origin := candidates.origin,
           warnings := outcome.warnings, manifestPath := path }

/-- Run on a day: the resolution or the failure, and the requests sent. -/
def run (options : Options) (files : Storage.Files) (source : Option Registry.Source)
    (today : Date) : Except Failure Resolution × List Registry.Request :=
  match manifest files options.workingDirectory with
  | .error failure => (.error failure, [])
  | .ok (path, content) =>
    let (candidates, requests) := Candidates.acquire options.offline options.minVersion source
    (ofManifest options path content candidates today, requests)

/-- The source of a run that asks the registry as its options say. -/
def webSource (asciiName? : List Char → Option (List Char)) (options : Options)
    (replies : Nat → Registry.Reply) : Registry.Source :=
  .web (Registry.Url.parse? asciiName? options.lifecycleUrl) options.maxRetries.toNat replies

end Resolution

end BuildMatrix
