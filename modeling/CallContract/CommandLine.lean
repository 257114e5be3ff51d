import CallContract.CommandLine.Options
import CallContract.CommandLine.Path
import CallContract.Config.Reader
import CallContract.Signature.Printer
import CallContract.Signature.Reader
import CallContract.Validator

/-!
# The command

`CommandLine.run` answers a request with an exit code and what is written to both outputs. `check` loads the
configuration first, then the signature, then the values; the first of them that fails ends the command. Exit code 0
says that all arguments are expected, 1 that some is not, and 2 that nothing could be validated.

Where a file or a value is malformed the line on the error output stops at what is malformed, without an end.
-/

namespace CallContract.CommandLine

/-- What the command did. -/
structure Outcome where
  exit : Nat
  stdout : String
  stderr : String
  deriving DecidableEq

/-- An error with its causes, outermost first; an open one is not told to the end. -/
structure Trouble where
  causes : List String
  isOpen : Bool := false

namespace Trouble

/-- The outcome of an error. -/
def outcome (t : Trouble) : Outcome :=
  ⟨2, "", "error: " ++ ": ".intercalate t.causes ++ if t.isOpen then "" else "\n"⟩

/-- The error of a configuration file. -/
def ofConfig (path : String) (e : Config.Error) : Trouble :=
  let context := "failed to load config " ++ path
  match e with
  | .unreadable reason => { causes := [context, e.message, reason] }
  | .yaml | .json => { causes := [context, e.message], isOpen := true }

/-- The error of a signature file. -/
def ofSignature (path : String) (e : Signature.Error) : Trouble :=
  let context := "failed to load signature " ++ path
  match e with
  | .unreadable reason => { causes := [context, e.message, reason] }
  | .yaml | .json => { causes := [context, e.message], isOpen := true }
  | .expectation cause => { causes := [context, e.message, cause.message] }
  | .shape _ | .missingField _ => { causes := [context, e.message] }

/-- The error of a value; values count from one. -/
def ofValue (index : Nat) (text : String) : Trouble :=
  { causes := ["value " ++ toString (index + 1) ++ " is not a JSON literal", text], isOpen := true }

end Trouble

/-- How files are read: the contents of a path, or the reason that there are none. -/
abbrev Files := String → Except String String

variable (files : Files)

/-! ## Loading -/

/-- The configuration of a file, if one is named, under what the options say. -/
def loadConfig (o : CheckOptions) : Except Trouble Config := do
  let config ← match o.config with
    | some path => (Config.ofYamlFile (files path)).mapError (.ofConfig path)
    | none => pure {}
  pure {
    docsUrl := o.docsUrl.getD config.docsUrl
    indexing := if o.legacyIndexing then .legacy else config.indexing }

/-- The signature of a file, whose name settles the format. -/
def loadSignature (path : String) : Except Trouble Signature :=
  (Signature.ofFile (if Path.isJson path then .json else .yaml) (files path)).mapError (.ofSignature path)

/-- The expectations of the signature, if one is named, or of the options. -/
def loadExpectations (o : CheckOptions) : Except Trouble (List String) :=
  match o.signature with
  | some path => (loadSignature files path).map (·.expects)
  | none => .ok o.expectations

/-- The value of a text: undefined, or what it writes in JSON. -/
def readValue? (text : String) : Option Value :=
  if text = "undefined" then some .undefined else Value.ofJsonText? text

/-- The value of the text at an index. -/
def readValueAt : String × Nat → Except Trouble Value
  | (text, index) => match readValue? text with
    | some v => .ok v
    | none => .error (.ofValue index text)

/-- The values of texts, the first malformed one an error. -/
def readValues (texts : List String) : Except Trouble Arguments :=
  (texts.zipIdx.mapM readValueAt).map Arguments.ofList

/-! ## Subcommands -/

/-- The outcome of an exception. -/
def exceptionOutcome (exit : Nat) (e : Exception) : Outcome :=
  ⟨exit, "", e.text ++ "\n"⟩

/-- The outcome of a validation in reporting mode. -/
def reportOutcome : Except Exception Report → Outcome
  | .ok report => ⟨if report.passed then 0 else 1, report.toJson.pretty ++ "\n", ""⟩
  | .error e => exceptionOutcome 2 e

/-- The outcome of a validation in strict mode. -/
def strictOutcome : Except Exception Bool → Outcome
  | .ok _ => ⟨0, "ok\n", ""⟩
  | .error e => exceptionOutcome (if e.kind = .argumentType then 1 else 2) e

/-- Loads what a validation needs and hands it on. -/
def withLoaded (o : CheckOptions) (validate : Config → Arguments → List String → Outcome) : Outcome :=
  let loaded := do
    let config ← loadConfig files o
    let expectations ← loadExpectations files o
    let arguments ← readValues o.values
    pure (validate config arguments expectations)
  match loaded with
  | .ok outcome => outcome
  | .error trouble => trouble.outcome

/-- Validates values. -/
def check (o : CheckOptions) : Outcome :=
  withLoaded files o fun config arguments expectations =>
    let validator : Validator := { config }
    if o.report then reportOutcome (validator.check arguments expectations)
    else strictOutcome (validator.expect arguments expectations)

/-- Prints a signature. -/
def signature (path : String) : Outcome :=
  match loadSignature files path with
  | .ok s => ⟨0, s.page, ""⟩
  | .error trouble => trouble.outcome

/-- The name and version of the command. -/
def versionText : String := "argcheck 0.1.0\n"

/-- How the command is used. -/
def usage : String :=
  "Usage: argcheck [-v] check [-e EXPECTATION]... [-s FILE] [-r] [--legacy-indexing] [--docs-url URL] [-c FILE] " ++
    "[VALUE]...\n       argcheck [-v] signature FILE\n"

/-- Answers a request. -/
def answer : Request → Outcome
  | .check o => check files o
  | .signature path => signature files path
  | .version => ⟨0, versionText, ""⟩
  | .help => ⟨0, usage, ""⟩

/-- Runs the command; nothing when the arguments make no request. -/
def run (arguments : List String) : Option Outcome :=
  (Request.ofArguments arguments).map (answer files)

/-- The files that a request reads. -/
def paths : Request → List String
  | .check o => o.config.toList ++ o.signature.toList
  | .signature path => [path]
  | .version | .help => []

end CallContract.CommandLine
