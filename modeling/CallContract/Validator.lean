import CallContract.Matching
import CallContract.Signature.Basic

/-!
# Validation

A `Validator` checks the arguments of calls. Every operation settles the expectations first and the number of
arguments second, and then matches position by position.

- `expect` is strict: the first mismatch is the exception;
- `check` reports every mismatch;
- `expectWithM` hands the report to a callback and says whether it has passed, `expectWith` keeps what was handed over;
- `expectSignature` and `checkSignature` take the parsed expectations of a signature.
-/

namespace CallContract

/-- Validation under a configuration. -/
structure Validator where
  config : Config := {}
  deriving Inhabited

/-- What a validation with a callback did: its result, and what the callback was given, call by call. -/
structure Delivery (α : Type) where
  result : Except Exception Bool
  calls : List α

/-- What a validation did whose callback keeps what it is given. -/
def Delivery.ofRun {α : Type} (validation : StateM (List α) (Except Exception Bool)) : Delivery α :=
  let (result, calls) := validation.run []
  ⟨result, calls⟩

namespace Validator

variable (v : Validator)

/-- A result whose faults are raised as exceptions of this validator. -/
def raising {α : Type} (result : Except Fault α) : Except Exception α :=
  result.mapError (Fault.raise v.config)

/-- The expectations that texts write. -/
def parse (expectations : List String) : Except Fault (List Expectation) :=
  (Expectation.parseList expectations).mapError .expectation

/-- The report on arguments and parsed expectations. -/
def reportOn (mode : Mode) (arguments : Arguments) (expectations : List Expectation) : Except Fault Report := do
  let call ← Call.pair arguments expectations
  call.report mode v.config.indexing

/-- The report on arguments and the texts of expectations. -/
def validate (mode : Mode) (arguments : Arguments) (expectations : List String) : Except Fault Report := do
  let expectations ← parse expectations
  v.reportOn mode arguments expectations

/-- Whether every argument is expected; the first that is not is the exception. -/
def expect (arguments : Arguments) (expectations : List String) : Except Exception Bool :=
  (v.raising (v.validate .strict arguments expectations)).map Report.passed

/-- The report on all arguments. -/
def check (arguments : Arguments) (expectations : List String) : Except Exception Report :=
  v.raising (v.validate .reporting arguments expectations)

/-- Whether the report on all arguments has passed, after a callback was given the report. What the callback does is
up to the monad. -/
def expectWithM {m : Type → Type} [Monad m] (arguments : Arguments) (expectations : List String)
    (callback : Report → m Unit) : m (Except Exception Bool) :=
  match v.check arguments expectations with
  | .ok report => do
    callback report
    pure (.ok report.passed)
  | .error e => pure (.error e)

/-- `expectWithM` with a callback that keeps the reports it is given. -/
def expectWith (arguments : Arguments) (expectations : List String) : Delivery Report :=
  .ofRun (v.expectWithM arguments expectations fun report => modify (· ++ [report]))

/-- Whether every argument is one the signature expects; the first that is not is the exception. -/
def expectSignature (arguments : Arguments) (signature : Signature) : Except Exception Bool :=
  (v.raising (v.reportOn .strict arguments signature.compiled)).map Report.passed

/-- The report on all arguments against a signature. -/
def checkSignature (arguments : Arguments) (signature : Signature) : Except Exception Report :=
  v.raising (v.reportOn .reporting arguments signature.compiled)

end Validator

end CallContract
