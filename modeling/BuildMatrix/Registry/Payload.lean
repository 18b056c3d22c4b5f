import BuildMatrix.Calendar.Reading
import BuildMatrix.Json.Tree
import BuildMatrix.Lifecycle

/-!
# Registry payloads

A registry answers with a JSON array of records, one for each release cycle, in its order. A record
is an object with the cycle's identifier and at most one statement about the end of its support,
among any other members; or an array of the identifier and the statement. A payload is read whole
or not at all.
-/

namespace BuildMatrix.Registry

/-- The member that holds a cycle's identifier. -/
def cycleName : String := "cycle"

/-- The member that holds the statement about the end of support. -/
def endName : String := "eol"

/-- The text of a JSON string. -/
def text? : Json.Tree → Option String
  | .string body => Json.decode? body
  | _ => none

/-- What a statement about the end of support says: a date, or whether support has ended. -/
def lifecycle? : Json.Tree → Option Lifecycle
  | .null => some .unscheduled
  | .boolean true => some .ended
  | .boolean false => some .unscheduled
  | .string body => ((Json.decode? body).bind Date.parse?).map .scheduled
  | _ => none

/-- The lifecycle of an optional statement; nothing said means nothing scheduled. -/
def statedLifecycle? : Option Json.Tree → Option Lifecycle
  | none => some .unscheduled
  | some statement => lifecycle? statement

/-- The members of an object with their names decoded. -/
def named? (members : List (Bytes × Json.Tree)) : Option (List (String × Json.Tree)) :=
  members.mapM fun (name, item) => (Json.decode? name).map fun decoded => (decoded, item)

/-- The items of the members with one name. -/
def itemsNamed (name : String) (members : List (String × Json.Tree)) : List Json.Tree :=
  (members.filter fun member => member.1 = name).map Prod.snd

/-- The cycle that an identifier and an optional statement describe. -/
def cycleOf? (identifier : Json.Tree) (statement : Option Json.Tree) : Option ReleaseCycle := do
  let cycle ← text? identifier
  let lifecycle ← statedLifecycle? statement
  some ⟨cycle, lifecycle⟩

/-- The release cycle that a record describes. -/
def cycle? : Json.Tree → Option ReleaseCycle
  | .object members => do
    let members ← named? members
    match itemsNamed cycleName members, itemsNamed endName members with
    | [identifier], [] => cycleOf? identifier none
    | [identifier], [statement] => cycleOf? identifier (some statement)
    | _, _ => none
  | .array [identifier] => cycleOf? identifier none
  | .array [identifier, statement] => cycleOf? identifier (some statement)
  | _ => none

/-- The release cycles of a payload, in its order. -/
def cycles? (body : Bytes) : Option (List ReleaseCycle) :=
  match Json.read? body with
  | some (.array records) => records.mapM cycle?
  | _ => none

end BuildMatrix.Registry
