import CallContract.Text.Blank

/-!
# Exceptions

Every failure of a validation is an `Exception`: a category, a message, and for the categories that the
documentation has a section on, a link to it.
-/

namespace CallContract

/-- The category of an exception. -/
inductive Exception.Kind where
  /-- There are no arguments to look at. -/
  | missingArguments
  /-- The expectations are missing or malformed. -/
  | invalidExpectations
  /-- The call passed no argument. -/
  | noArguments
  /-- The call passed another number of arguments than is expected. -/
  | arityMismatch
  /-- An argument is of a kind that is not expected. -/
  | argumentType
  /-- The callback cannot be called. -/
  | invalidCallback
  /-- Any other failure. -/
  | general
  deriving DecidableEq, Inhabited

namespace Exception.Kind

/-- All categories. -/
def all : List Exception.Kind :=
  [.missingArguments, .invalidExpectations, .noArguments, .arityMismatch, .argumentType, .invalidCallback, .general]

/-- The name of a category. -/
def name : Exception.Kind → String
  | .missingArguments => "MissingArguments"
  | .invalidExpectations => "InvalidExpectations"
  | .noArguments => "NoArguments"
  | .arityMismatch => "ArityMismatch"
  | .argumentType => "ArgumentType"
  | .invalidCallback => "InvalidCallback"
  | .general => "General"

/-- The category with a name. -/
def ofName? (name : String) : Option Exception.Kind :=
  all.find? (·.name == name)

/-- The section of the documentation on a category. -/
def anchor? : Exception.Kind → Option String
  | .missingArguments | .noArguments | .arityMismatch | .argumentType => some "function-arguments"
  | .invalidExpectations => some "expectations"
  | .invalidCallback => some "callback-function"
  | .general => none

end Exception.Kind

/-- A failure as it is handed to the caller. -/
structure Exception where
  kind : Exception.Kind
  message : String
  helpUrl : Option String := none
  deriving DecidableEq

namespace Exception

/-- The name that all exceptions carry. -/
def name : String := "ArgumentException"

/-- An exception without a category. -/
def ofMessage (message : String) : Exception :=
  { kind := .general, message }

/-- Links the exception to its section of the documentation at a root; without a section nothing changes. -/
def documented (docsUrl : String) (e : Exception) : Exception :=
  match e.kind.anchor? with
  | some anchor => { e with helpUrl := some (Text.dropTrailing '#' docsUrl ++ "#" ++ anchor) }
  | none => e

/-- The text of an exception, its link in a paragraph of its own. -/
def text (e : Exception) : String :=
  let help := match e.helpUrl with
    | some url => "\n\nFor more info, go to " ++ url
    | none => ""
  name ++ ": " ++ e.message ++ help

end Exception

end CallContract
