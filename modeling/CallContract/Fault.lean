import CallContract.Config
import CallContract.Exception
import CallContract.Expectation

/-!
# Faults

The causes for which a validation fails. A cause settles the category and the message of the exception; the
configuration only adds the link to the documentation (`Fault.raise`).
-/

namespace CallContract

/-- Why a validation failed. -/
inductive Fault where
  /-- No arguments are given. -/
  | argumentsMissing
  /-- What is given does not have the shape of arguments. -/
  | argumentsShape
  /-- The expectations are missing or malformed. -/
  | expectation (e : Expectation.Error)
  /-- What is given for expectations is not an array. -/
  | expectationsShape (kind : Kind)
  /-- An item of the expectations is not a string. -/
  | expectationItem (kind : Kind) (text : String)
  /-- The call passed no argument. -/
  | noArguments (expectations : List Expectation)
  /-- The call passed another number of arguments than is expected. -/
  | arity
  /-- The argument at a position, which counts from one, is of a kind that is not expected. -/
  | mismatch (position : Nat) (e : Expectation) (kind : Kind)
  /-- The callback is not a function. -/
  | callback (kind : Kind)
  deriving DecidableEq

namespace Fault

/-- The category of a cause. -/
def category : Fault → Exception.Kind
  | .argumentsMissing | .argumentsShape => .missingArguments
  | .expectation .. | .expectationsShape .. | .expectationItem .. => .invalidExpectations
  | .noArguments _ => .noArguments
  | .arity => .arityMismatch
  | .mismatch .. => .argumentType
  | .callback _ => .invalidCallback

/-- The message of a cause. -/
def message : Fault → String
  | .argumentsMissing => "Function arguments are required."
  | .argumentsShape => "Function arguments must be an instance of a function's arguments."
  | .expectation e => e.message
  | .expectationsShape kind =>
    "Expectations must be an array of string expectations, " ++ kind.name ++ " was passed."
  | .expectationItem kind text =>
    "Expectations must only contain valid string expectations, " ++ kind.name ++ " was detected - `" ++ text ++ "`."
  | .noArguments expectations =>
    "There were no arguments passed. Function expects arguments to be: (" ++ Expectation.render expectations ++ ")."
  | .arity => "The number of function arguments does not match the number of expected arguments."
  | .mismatch position e kind =>
    "Argument number " ++ toString position ++ " must be " ++ e.raw ++ ", " ++ kind.name ++ " was passed."
  | .callback kind => "Callback function must be a function, " ++ kind.name ++ " was passed."

/-- The exception for a cause, linked to the documentation of the configuration. -/
def raise (config : Config) (f : Fault) : Exception :=
  Exception.documented config.docsUrl { kind := f.category, message := f.message }

end Fault

end CallContract
