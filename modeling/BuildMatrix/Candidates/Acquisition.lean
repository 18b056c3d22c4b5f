import BuildMatrix.Candidates
import BuildMatrix.Registry.Exchange

/-!
# Acquiring candidates

Candidates come from a source of release cycles, unless the program is offline, there is no source,
the source fails, or none of its cycles is usable; then they are those of the built-in table.
Offline, no source is asked.
-/

namespace BuildMatrix.Candidates

open Registry (Request RegistryError Source)

/-- The candidates of a source's answer; without a usable cycle it is a failure. -/
def ofAnswer (floor : Version) (answer : Except RegistryError (List ReleaseCycle)) :
    Except RegistryError Candidates :=
  answer.bind fun cycles =>
    let candidates := ofCycles cycles floor
    if candidates.entries.isEmpty then .error .emptyResponse else .ok candidates

/-- The candidates of a source's answer, or those of the built-in table. -/
def ofAnswerOrBuiltIn (floor : Version) (answer : Except RegistryError (List ReleaseCycle)) :
    Candidates :=
  match ofAnswer floor answer with
  | .ok candidates => candidates
  | .error _ => builtIn

/-- The candidates to resolve against, and the requests sent for them. -/
def acquire (offline : Bool) (floor : Version) (source : Option Source) :
    Candidates × List Request :=
  match offline, source with
  | false, some source =>
    let consultation := source.consult
    (ofAnswerOrBuiltIn floor consultation.answer, consultation.requests)
  | _, _ => (builtIn, [])

end BuildMatrix.Candidates
