import CallContract.Json.Printer
import CallContract.Signature.Basic

/-!
# The shape of signature documents

`Signature.violations` lists what a JSON document breaks: it has to be an object with a non-empty string `name`, a
non-empty array of strings `expects`, an optional string `description`, and nothing else. Violations of the known
keys come first, in the order of the keys, then unknown keys, then missing ones. A document that is no object breaks
nothing else.
-/

namespace CallContract.Signature

/-- The keys that a document may have. -/
def knownKeys : List String :=
  ["description", "expects", "name"]

/-- The keys that a document must have, in the order in which missing ones are named. -/
def requiredKeys : List String :=
  ["name", "expects"]

/-! ## Violations -/

/-- The violations of a description. -/
def descriptionViolations : Json → List Violation
  | .string _ => []
  | j => [.descriptionType j]

/-- The violation of an expectation, if any. -/
def itemViolation? : Json × Nat → Option Violation
  | (.string _, _) => none
  | (j, index) => some (.itemType index j)

/-- The violations of the expectations. -/
def expectsViolations : Json → List Violation
  | .array items => (if items.isEmpty then [.expectsEmpty] else []) ++ items.zipIdx.filterMap itemViolation?
  | j => [.expectsType j]

/-- The violations of a name. -/
def nameViolations : Json → List Violation
  | .string s => if s.isEmpty then [.nameEmpty] else []
  | j => [.nameType j]

/-- The violations of an object's members. -/
def memberViolations (members : List (String × Json)) : List Violation :=
  let at? (key : String) (check : Json → List Violation) := ((Entries.find? members key).map check).getD []
  let unknown := (members.map (·.1)).filter fun key => !knownKeys.contains key
  let missing := requiredKeys.filter fun key => (Entries.find? members key).isNone
  at? "description" descriptionViolations ++ at? "expects" expectsViolations ++ at? "name" nameViolations ++
    (if unknown.isEmpty then [] else [.unknownKeys unknown]) ++ missing.map .missingKey

/-- What a document breaks. -/
def violations : Json → List Violation
  | .object members => memberViolations members
  | j => [.documentType j]

/-! ## Messages -/

namespace Violation

/-- The place of a violation as a path of keys; the document itself has the empty path. -/
def path : Violation → String
  | .documentType _ | .unknownKeys _ | .missingKey _ => ""
  | .descriptionType _ => "/description"
  | .expectsType _ | .expectsEmpty => "/expects"
  | .itemType index _ => "/expects/" ++ toString index
  | .nameType _ | .nameEmpty => "/name"

/-- A value that is not of the type it should be. -/
def wrongType (found : Json) (type : String) : String :=
  found.compact ++ " is not of type \"" ++ type ++ "\""

/-- What is wrong, without the place. -/
def complaint : Violation → String
  | .documentType found => wrongType found "object"
  | .descriptionType found => wrongType found "string"
  | .expectsType found => wrongType found "array"
  | .expectsEmpty => "[] has less than 1 item"
  | .itemType _ found => wrongType found "string"
  | .nameType found => wrongType found "string"
  | .nameEmpty => "\"\" is shorter than 1 character"
  | .unknownKeys keys =>
    "Additional properties are not allowed (" ++ ", ".intercalate (keys.map fun key => "'" ++ key ++ "'") ++
      (if keys.length = 1 then " was" else " were") ++ " unexpected)"
  | .missingKey key => "\"" ++ key ++ "\" is a required property"

/-- What is wrong, and where. -/
def message (v : Violation) : String :=
  v.complaint ++ " at " ++ v.path

end Violation

/-- The message of an error. -/
def Error.message : Error → String
  | .unreadable reason => "Failed to read signature file: " ++ reason
  | .yaml => "Failed to parse YAML"
  | .json => "Failed to parse JSON"
  | .shape violations => "Signature does not match schema: " ++ "; ".intercalate (violations.map Violation.message)
  | .missingField field => "Missing required field: " ++ field
  | .expectation e => "Invalid expectation: " ++ e.message

end CallContract.Signature
