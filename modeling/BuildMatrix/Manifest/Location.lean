import BuildMatrix.Storage.Tree

/-!
# Locating and reading manifests

A manifest is a regular file of a fixed name in the working directory, and its content is UTF-8.
Each way in which it may not be had is a cause of its own.
-/

namespace BuildMatrix

/-- Causes for which a file that was asked for cannot be read. -/
inductive ReadFailure where
  /-- The bytes are not UTF-8. -/
  | notUtf8
  /-- The path leads to a directory. -/
  | isDirectory
  /-- The path leads through a regular file. -/
  | notDirectory
deriving DecidableEq

/-- Causes for which a manifest declares nothing that can be read. -/
inductive ManifestError where
  /-- There is no such file. -/
  | notFound (path : String)
  /-- The file cannot be read. -/
  | unreadable (path : String) (failure : ReadFailure)
  /-- The text has neither a constraint nor a classifier. -/
  | noVersionInfo (path : String)
deriving DecidableEq

/-- The user-facing text of a read failure. -/
def ReadFailure.message : ReadFailure → String
  | .notUtf8 => "stream did not contain valid UTF-8"
  | .isDirectory => "Is a directory (os error 21)"
  | .notDirectory => "Not a directory (os error 20)"

/-- The user-facing text of a manifest failure. -/
def ManifestError.message : ManifestError → String
  | .notFound path => s!"manifest file not found: {path}"
  | .unreadable path failure => s!"failed to read manifest file {path}: {failure.message}"
  | .noVersionInfo path => s!"no Python version information found in {path}"

namespace Manifest

/-- The name of a manifest file. -/
def fileName : String := "pyproject.toml"

/-- The path of the manifest in a directory, if a regular file is there. -/
def locate (files : Storage.Files) (directory : String) : Except ManifestError String :=
  let path := Storage.join directory fileName
  match files path with
  | .file _ => .ok path
  | _ => .error (.notFound path)

/-- The text of the file at a path. -/
def read (files : Storage.Files) (path : String) : Except ManifestError String :=
  match files path with
  | .missing => .error (.notFound path)
  | .blocked => .error (.unreadable path .notDirectory)
  | .directory => .error (.unreadable path .isDirectory)
  | .file content =>
    match Text.decodeUtf8? content with
    | some text => .ok text
    | none => .error (.unreadable path .notUtf8)

end Manifest

end BuildMatrix
