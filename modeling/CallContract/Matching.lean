import CallContract.Arguments
import CallContract.Fault
import CallContract.Report

/-!
# Matching arguments with expectations

A `Call` pairs arguments with as many expectations. Matching walks over the positions with a cursor, the index to look
at next and the failures found so far. `Call.step` looks at one position: a match moves the cursor by one; a mismatch
is a fault in strict mode and a recorded failure in reporting mode. `Call.run` steps until the cursor has left the
arguments, which `Call.step_index_lt` shows it does.
-/

namespace CallContract

/-- What becomes of a mismatch. -/
inductive Mode where
  /-- The first one ends the validation. -/
  | strict
  /-- Every one is recorded. -/
  | reporting
  deriving DecidableEq

/-- Arguments with as many expectations. -/
structure Call where
  values : Array Value
  expectations : Array Expectation
  size_eq : expectations.size = values.size

/-- Where matching stands: the index to look at next and the failures so far. -/
structure Cursor where
  index : Nat
  report : Report

namespace Call

/-- The evidence that a number of arguments can be matched, or the fault that it cannot: none at all comes first,
then a number that differs from the number of expectations. -/
def checkArity (length : Nat) (expectations : List Expectation) :
    Except Fault (PLift (0 < length ∧ expectations.length = length)) :=
  if h : 0 < length then
    if h' : expectations.length = length then .ok ⟨h, h'⟩ else .error .arity
  else .error (.noArguments expectations)

/-- Arguments and expectations that can be matched. -/
def pair (arguments : Arguments) (expectations : List Expectation) : Except Fault Call := do
  let ⟨h⟩ ← checkArity arguments.size expectations
  pure ⟨arguments.values, expectations.toArray, by simpa [Arguments.size] using h.2⟩

variable (mode : Mode) (indexing : Indexing) (c : Call)

/-- The index of the argument that an entry on a mismatch describes. -/
def reportedIndex (index : Nat) : Nat :=
  match indexing with
  | .consistent => index
  | .legacy => index + 1

theorem le_reportedIndex (index : Nat) : index ≤ reportedIndex indexing index := by
  cases indexing with
  | consistent => exact Nat.le_refl index
  | legacy => exact Nat.le_succ index

/-- The failure recorded for a mismatch: it describes the reported argument, which is undefined past the end. -/
def failureAt (index : Nat) (e : Expectation) (message : String) : Failure :=
  let data := c.values[reportedIndex indexing index]?.getD .undefined
  { passedData := data, passedKind := data.kind, expects := e.tags, message }

/-- Looks at one position. -/
def step (cursor : Cursor) (h : cursor.index < c.values.size) : Except Fault Cursor :=
  have hExpectation : cursor.index < c.expectations.size := by rw [c.size_eq]; exact h
  let e := c.expectations[cursor.index]
  let kind := c.values[cursor.index].kind
  if e.accepts kind then .ok { cursor with index := cursor.index + 1 }
  else
    let position := cursor.index + 1
    let fault := Fault.mismatch position e kind
    match mode with
    | .strict => .error fault
    | .reporting => .ok {
        index := reportedIndex indexing cursor.index + 1
        report := cursor.report.record position (c.failureAt indexing cursor.index e fault.message) }

theorem step_index_lt {cursor next : Cursor} {h : cursor.index < c.values.size}
    (hs : c.step mode indexing cursor h = .ok next) : cursor.index < next.index := by
  unfold step at hs
  simp only at hs
  split at hs
  · cases hs
    exact Nat.lt_succ_self cursor.index
  · cases mode with
    | strict => exact nomatch hs
    | reporting =>
      cases hs
      exact Nat.lt_succ_of_le (le_reportedIndex indexing cursor.index)

/-- The report when all positions from the cursor on have been looked at. -/
def run (cursor : Cursor) : Except Fault Report :=
  if h : cursor.index < c.values.size then
    match _moved : c.step mode indexing cursor h with
    | .error fault => .error fault
    | .ok next => run next
  else .ok cursor.report
termination_by c.values.size - cursor.index
decreasing_by
  have := step_index_lt mode indexing c _moved
  omega

/-- The report on all positions. -/
def report : Except Fault Report :=
  c.run mode indexing ⟨0, .empty⟩

end Call

end CallContract
