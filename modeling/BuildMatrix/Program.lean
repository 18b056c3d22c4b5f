/-!
# The program's identity

The name and version under which the program presents itself to its users and to the registry.
-/

namespace BuildMatrix.Program

/-- The program's name. -/
def name : String := "python-versions"

/-- The program's version. -/
def version : String := "26.1.103"

/-- What the program says when it is asked for its version. -/
def banner : String :=
  s!"{name} {version}"

/-- How the program names itself in requests. -/
def userAgent : String :=
  s!"{name}/{version}"

end BuildMatrix.Program
