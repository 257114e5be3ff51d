import CallContract.Config
import CallContract.Json.Raw
import CallContract.Yaml.Document

/-!
# Reading a configuration

A configuration file is a YAML mapping, or nothing; in JSON it is an object, or an array of the fields in order. Fields
that are absent have their defaults, unknown ones are passed over without a look at their values, and a known field
that is there twice is refused.
-/

namespace CallContract.Config

/-- Why a configuration could not be loaded. -/
inductive Error where
  /-- The file could not be read. -/
  | unreadable (reason : String)
  /-- The text is no YAML configuration. -/
  | yaml
  /-- The text is no JSON configuration. -/
  | json

/-- The message of an error. -/
def Error.message : Error → String
  | .unreadable reason => "Failed to read config file: " ++ reason
  | .yaml => "Failed to parse YAML"
  | .json => "Failed to parse JSON"

/-- The fields that a file has given so far. -/
structure Fields where
  docsUrl : Option String := none
  indexing : Option Indexing := none

namespace Fields

/-- The configuration with the defaults for what is not given. -/
def complete (f : Fields) : Config :=
  let default : Config := {}
  { docsUrl := f.docsUrl.getD default.docsUrl, indexing := f.indexing.getD default.indexing }

/-- One more field under a key; `text?` and `indexing?` read the value, which may not be given twice. -/
def add (f : Fields) (key : String) (text? : Option String) (indexing? : Option Indexing) : Option Fields :=
  if key = "docs_url" then
    if f.docsUrl.isSome then none else text?.map fun url => { f with docsUrl := some url }
  else if key = "indexing" then
    if f.indexing.isSome then none else indexing?.map fun indexing => { f with indexing := some indexing }
  else some f

end Fields

/-! ## JSON -/

/-- A string. -/
def rawText? : Json.Raw → Option String
  | .string units => Json.Raw.text? units
  | _ => none

/-- An indexing by its name. -/
def rawIndexing? (j : Json.Raw) : Option Indexing :=
  j.caseName?.bind Indexing.ofName?

/-- The configuration of a JSON tree. -/
def ofRaw? : Json.Raw → Option Config
  | .object members =>
    let add (f : Fields) (m : List Json.StringUnit × Json.Raw) : Option Fields :=
      (Json.Raw.text? m.1).bind fun key => f.add key (rawText? m.2) (rawIndexing? m.2)
    (members.foldlM add {}).map Fields.complete
  | .array [] => some {}
  | .array [url] => (rawText? url).map fun url => { docsUrl := url }
  | .array [url, indexing] => (rawText? url).bind fun url =>
      (rawIndexing? indexing).map fun indexing => { docsUrl := url, indexing }
  | _ => none

/-- The configuration that a JSON text writes. -/
def ofJsonText (text : String) : Except Error Config :=
  match (Json.Raw.ofString? text).bind ofRaw? with
  | some config => .ok config
  | none => .error .json

/-! ## YAML -/

/-- The text of a scalar, whatever its type. -/
def nodeText? (d : Yaml.Document) (node : Yaml.Node) : Option String :=
  match d.follow node with
  | some (.scalar _ _ text) => some text
  | _ => none

/-- An indexing: a scalar with its name, or a local tag with its name in front of nothing or of a plain null. -/
def nodeIndexing? (d : Yaml.Document) (node : Yaml.Node) : Option Indexing :=
  match d.follow node with
  | some (.scalar tag plain text) =>
    match tag.map String.toList with
    | some ('!' :: name) =>
      if plain && (text.isEmpty || Yaml.Scalar.isNull text) then Indexing.ofName? (String.ofList name) else none
    | _ => Indexing.ofName? text
  | _ => none

/-- The configuration of a YAML document: a mapping, or a marked document with nothing in it. -/
def ofDocument? (d : Yaml.Document) : Option Config :=
  match d.follow d.root with
  | some (.scalar _ true "") => some {}
  | some (.mapping _ pairs) =>
    let add (f : Fields) (pair : Yaml.Node × Yaml.Node) : Option Fields :=
      (nodeText? d pair.1).bind fun key => f.add key (nodeText? d pair.2) (nodeIndexing? d pair.2)
    (pairs.foldlM add {}).map Fields.complete
  | _ => none

/-- The configuration that a YAML text writes; a text without a document writes the default one. -/
def ofYamlText (text : String) : Except Error Config :=
  match Yaml.ofString? text with
  | some none => .ok {}
  | some (some d) => match ofDocument? d with
    | some config => .ok config
    | none => .error .yaml
  | none => .error .yaml

/-- The configuration in a file, given its contents or the reason that there are none. -/
def ofYamlFile (contents : Except String String) : Except Error Config :=
  match contents with
  | .ok text => ofYamlText text
  | .error reason => .error (.unreadable reason)

end CallContract.Config
