import CallContract.Json.Raw
import CallContract.Signature.Shape
import CallContract.Yaml.Document

/-!
# Reading a signature

A signature file is a JSON or YAML document. The document must have the shape of a signature; then its expectations
are parsed. `Signature.ofRawText` reads the fields alone, checks no shape and parses nothing.
-/

namespace CallContract.Signature

/-! ## Documents -/

/-- A string. -/
def string? : Json → Option String
  | .string s => some s
  | _ => none

/-- The fields of a document that has the shape of a signature. -/
def fields? : Json → Option Signature
  | .object members => do
    let name ← (Entries.find? members "name").bind string?
    let expects ← match Entries.find? members "expects" with
      | some (.array items) => items.mapM string?
      | _ => none
    some { name, description := (Entries.find? members "description").bind string?, expects }
  | _ => none

/-- The signature of a document; `unreadable` is the error for fields that cannot be read, which do not occur in a
document of the right shape. -/
def ofDocument (document : Json) : Except Error Signature :=
  match violations document with
  | [] => match fields? document with
    | some s => s.compile
    | none => .error .json
  | vs => .error (.shape vs)

/-- The signature that a JSON text writes. -/
def ofJsonText (text : String) : Except Error Signature :=
  match Json.ofString? text with
  | some document => ofDocument document
  | none => .error .json

/-- The signature that a YAML text writes. -/
def ofYamlText (text : String) : Except Error Signature :=
  match Yaml.toJson? text with
  | some document => ofDocument document
  | none => .error .yaml

/-! ## Files -/

/-- The format of a signature file. -/
inductive Format where
  | json
  | yaml
  deriving DecidableEq

/-- The signature in a file of a format, given its contents or the reason that there are none. -/
def ofFile (format : Format) (contents : Except String String) : Except Error Signature :=
  match contents with
  | .error reason => .error (.unreadable reason)
  | .ok text => match format with
    | .json => ofJsonText text
    | .yaml => ofYamlText text

/-! ## Fields alone -/

/-- The fields that a text has given so far; the description may be given as null. -/
structure Fields where
  name : Option String := none
  description : Option (Option String) := none
  expects : Option (List String) := none

namespace Fields

/-- A string. -/
def text? : Json.Raw → Option String
  | .string units => Json.Raw.text? units
  | _ => none

/-- A string or null. -/
def description? : Json.Raw → Option (Option String)
  | .null => some none
  | j => (text? j).map some

/-- A list of strings. -/
def texts? : Json.Raw → Option (List String)
  | .array items => items.mapM text?
  | _ => none

/-- One more member; unknown keys are passed over, known ones may not be given twice. -/
def add (f : Fields) (m : List Json.StringUnit × Json.Raw) : Option Fields := do
  let key ← Json.Raw.text? m.1
  if key = "name" then
    if f.name.isSome then none else (text? m.2).map fun s => { f with name := some s }
  else if key = "description" then
    if f.description.isSome then none else (description? m.2).map fun d => { f with description := some d }
  else if key = "expects" then
    if f.expects.isSome then none else (texts? m.2).map fun es => { f with expects := some es }
  else some f

/-- The signature when name and expectations are given. -/
def complete? (f : Fields) : Option Signature := do
  some { name := ← f.name, description := f.description.getD none, expects := ← f.expects }

end Fields

/-- The signature of a JSON tree, not compiled: an object, or an array of the three fields in order. -/
def ofRaw? : Json.Raw → Option Signature
  | .object members => (members.foldlM Fields.add {}).bind Fields.complete?
  | .array [name, description, expects] => do
    some {
      name := ← Fields.text? name
      description := ← Fields.description? description
      expects := ← Fields.texts? expects }
  | _ => none

/-- The signature whose fields a JSON text writes, not compiled. -/
def ofRawText (text : String) : Except Error Signature :=
  match (Json.Raw.ofString? text).bind ofRaw? with
  | some s => .ok s
  | none => .error .json

end CallContract.Signature
