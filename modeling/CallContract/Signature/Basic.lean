import CallContract.Expectation
import CallContract.Json.Basic

/-!
# Signatures

A signature names a list of expectations. `Signature.compile` is the only way to the parsed expectations: it refuses
a blank name first and a malformed list second. Shorthand writes the list as one text with commas.
-/

namespace CallContract

/-- A requirement on signature documents that is not met, and where. -/
inductive Signature.Violation where
  /-- The document is not an object. -/
  | documentType (found : Json)
  /-- The description is not a string. -/
  | descriptionType (found : Json)
  /-- The expectations are not an array. -/
  | expectsType (found : Json)
  /-- The array of expectations is empty. -/
  | expectsEmpty
  /-- An item of the expectations is not a string. -/
  | itemType (index : Nat) (found : Json)
  /-- The name is not a string. -/
  | nameType (found : Json)
  /-- The name is the empty string. -/
  | nameEmpty
  /-- There are keys beside the known ones. -/
  | unknownKeys (keys : List String)
  /-- A key is missing. -/
  | missingKey (key : String)

/-- Why a signature could not be loaded. -/
inductive Signature.Error where
  /-- The file could not be read. -/
  | unreadable (reason : String)
  /-- The text is not YAML. -/
  | yaml
  /-- The text is not JSON. -/
  | json
  /-- The document does not have the shape of a signature. -/
  | shape (violations : List Signature.Violation)
  /-- A field has nothing in it. -/
  | missingField (field : String)
  /-- The expectations are missing or malformed. -/
  | expectation (e : Expectation.Error)

/-- A named list of expectations. -/
structure Signature where
  name : String
  description : Option String := none
  /-- The expectations as texts. -/
  expects : List String
  /-- The parsed expectations; a signature that has not been compiled has none. -/
  compiled : List Expectation := []
  deriving DecidableEq, Inhabited

namespace Signature

/-- The signature with its expectations parsed. -/
def compile (s : Signature) : Except Error Signature :=
  if Text.allBlank s.name then .error (.missingField "name")
  else match Expectation.parseList s.expects with
    | .ok compiled => .ok { s with compiled }
    | .error e => .error (.expectation e)

/-- A signature from a name and the texts of its expectations. -/
def ofTexts (name : String) (expects : List String) : Except Error Signature :=
  compile { name, expects }

/-- The texts that a shorthand lists: none in a blank one, else the pieces between commas without blanks around. -/
def shorthandTexts (shorthand : String) : List String :=
  if Text.allBlank shorthand then [] else (Text.pieces ',' shorthand).map Text.trim

/-- A signature from a name and a shorthand. -/
def ofShorthand (name shorthand : String) : Except Error Signature :=
  ofTexts name (shorthandTexts shorthand)

/-- The number of positions. -/
def arity (s : Signature) : Nat :=
  s.compiled.length

/-- The signature on one line. -/
def render (s : Signature) : String :=
  s.name ++ "(" ++ Expectation.render s.compiled ++ ")"

/-- The members of the signature's document; a description that is absent is left out. -/
def members (s : Signature) : List (String × Json) :=
  [("name", .string s.name)] ++ (s.description.map fun d => ("description", .string d)).toList ++
    [("expects", .strings s.expects)]

/-- The signature as a JSON document. -/
def toJson (s : Signature) : Json :=
  .object s.members

end Signature

end CallContract
