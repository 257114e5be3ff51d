import CallContract.Signature.Basic
import CallContract.Yaml.Printer

/-!
# Printing a signature

A signature is printed as a YAML document below a comment with the signature on one line.
-/

namespace CallContract.Signature

/-- The YAML document of a signature. -/
def yamlChars (s : Signature) : List Char :=
  Yaml.stringEntry "name" s.name ++ (s.description.map (Yaml.stringEntry "description")).getD [] ++
    Yaml.stringsEntry "expects" s.expects

/-- The YAML document of a signature. -/
def toYaml (s : Signature) : String :=
  String.ofList s.yamlChars

/-- The YAML document of a signature below its rendering. -/
def page (s : Signature) : String :=
  "# " ++ s.render ++ "\n" ++ s.toYaml

end CallContract.Signature
