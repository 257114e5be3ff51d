import CallContract.Validator

/-!
# Validation of loosely typed inputs

`Validator.expectDynamicM` takes values for everything: an object that encodes the arguments, an array of strings, and
a callback. A callback that is not truthy selects strict mode. With any other the report is complete, and the callback
has to be a function, which is called with the report as its only argument; its answer does not matter.
`Validator.expectDynamic` keeps the calls.

Counts are settled before any entry of the arguments is read.
-/

namespace CallContract

/-- A call of a function. -/
structure FunctionCall where
  callee : Function
  arguments : List Value

namespace Validator

variable (v : Validator)

/-- The expectation that an item of an array writes. -/
def parseItem : Value → Except Fault Expectation
  | .string s => (Expectation.parse s).mapError .expectation
  | item => .error (.expectationItem item.kind item.text)

/-- The expectations that a value lists. -/
def parseDynamic (expectations : Value) : Except Fault (List Expectation) :=
  if !expectations.truthy then .error (.expectation .missing)
  else match expectations with
    | .array items => if items.isEmpty then .error (.expectation .missing) else items.mapM parseItem
    | other => .error (.expectationsShape other.kind)

/-- The report on the arguments that an object encodes. -/
def reportDynamic (mode : Mode) (arguments expectations : Value) : Except Fault Report := do
  if !arguments.truthy then throw .argumentsMissing
  let some length := Arguments.declaredLength? arguments | throw .argumentsShape
  let expectations ← parseDynamic expectations
  let _ ← Call.checkArity length expectations
  let some arguments := Arguments.ofObject? arguments | throw .argumentsShape
  v.reportOn mode arguments expectations

/-- Validates loosely typed inputs. What a call of a function does is up to `call`. -/
def expectDynamicM {m : Type → Type} [Monad m] (call : Function → List Value → m Value)
    (arguments expectations callback : Value) : m (Except Exception Bool) :=
  let mode := if callback.truthy then .reporting else .strict
  match v.raising (v.reportDynamic mode arguments expectations) with
  | .error e => pure (.error e)
  | .ok report =>
    if !callback.truthy then pure (.ok report.passed)
    else match callback with
      | .function f => do
        let _ ← call f [report.toValue]
        pure (.ok report.passed)
      | other => pure (.error (Fault.raise v.config (.callback other.kind)))

/-- `expectDynamicM` with the functions' own answers, which keeps the calls that were made. -/
def expectDynamic (arguments expectations callback : Value) : Delivery FunctionCall :=
  .ofRun (v.expectDynamicM (fun f arguments => do
    modify (· ++ [⟨f, arguments⟩])
    pure (f.call arguments)) arguments expectations callback)

end Validator

end CallContract
