import CallContract.Expectation
import CallContract.Value.Json

/-!
# Reports

A report holds at most one failure for each position, in the order of positions, and whether it has passed.

- `Report.record` adds a failure, or replaces the one at its position, and the report has not passed any more;
- `Report.entries` is the view by increasing positions;
- `Report.toJson` writes the entries by position, `Report.toValue` is the value a callback is given, with its keys in
  the order of texts.
-/

namespace CallContract

/-- A recorded mismatch. -/
structure Failure where
  passedData : Value
  passedKind : Kind
  expects : List TypeTag
  message : String
  deriving Inhabited

namespace Failure

/-- The failure as JSON. -/
def toJson (f : Failure) : Json :=
  .object [
    ("passedData", f.passedData.toJson),
    ("passedDataType", .string f.passedKind.name),
    ("expects", .strings (f.expects.map TypeTag.spelling)),
    ("message", .string f.message)]

/-- The failure as a value. -/
def toValue (f : Failure) : Value :=
  .ofEntries [
    ("passedData", f.passedData),
    ("passedDataType", .string f.passedKind.name),
    ("expects", .strings (f.expects.map TypeTag.spelling)),
    ("message", .string f.message)]

end Failure

/-- The failures of a validation, and whether it has passed. The latest position stands first, so that failures found
in order are added in front. -/
structure Report where
  latestFirst : List (Nat × Failure)
  passed : Bool
  decreasing : latestFirst.Pairwise (fun later earlier => earlier.1 < later.1)
  passed_eq : passed = latestFirst.isEmpty

namespace Report

/-- A report without failures. -/
def empty : Report :=
  ⟨[], true, .nil, rfl⟩

instance : Inhabited Report := ⟨empty⟩

/-! ## Recording -/

/-- Puts a failure at its place among decreasing positions, or in the place of the failure that is there. -/
def insertDecreasing (position : Nat) (f : Failure) : List (Nat × Failure) → List (Nat × Failure)
  | [] => [(position, f)]
  | entry :: rest =>
    if entry.1 < position then (position, f) :: entry :: rest
    else if entry.1 = position then (position, f) :: rest
    else entry :: insertDecreasing position f rest

theorem fst_of_mem_insertDecreasing {position : Nat} {f : Failure} {entries : List (Nat × Failure)}
    {x : Nat × Failure} (h : x ∈ insertDecreasing position f entries) : x.1 = position ∨ x ∈ entries := by
  fun_induction insertDecreasing position f entries with
  | case1 => simp_all
  | case2 => simp_all; grind
  | case3 => simp_all; grind
  | case4 => simp_all; grind

theorem pairwise_insertDecreasing (position : Nat) (f : Failure) {entries : List (Nat × Failure)}
    (h : entries.Pairwise (fun later earlier => earlier.1 < later.1)) :
    (insertDecreasing position f entries).Pairwise (fun later earlier => earlier.1 < later.1) := by
  fun_induction insertDecreasing position f entries with
  | case1 => simp
  | case2 entry rest hlt =>
    refine List.pairwise_cons.2 ⟨fun x hx => ?_, h⟩
    rcases List.mem_cons.1 hx with rfl | hx
    · exact hlt
    · exact Nat.lt_trans ((List.pairwise_cons.1 h).1 x hx) hlt
  | case3 entry rest _ heq =>
    obtain ⟨h1, h2⟩ := List.pairwise_cons.1 h
    exact List.pairwise_cons.2 ⟨fun x hx => heq ▸ h1 x hx, h2⟩
  | case4 entry rest hle hne ih =>
    obtain ⟨h1, h2⟩ := List.pairwise_cons.1 h
    refine List.pairwise_cons.2 ⟨fun x hx => ?_, ih h2⟩
    rcases fst_of_mem_insertDecreasing hx with hx | hx
    · omega
    · exact h1 x hx

theorem isEmpty_insertDecreasing (position : Nat) (f : Failure) (entries : List (Nat × Failure)) :
    (insertDecreasing position f entries).isEmpty = false := by
  fun_cases insertDecreasing position f entries <;> rfl

/-- Records a failure at a position. -/
def record (r : Report) (position : Nat) (f : Failure) : Report where
  latestFirst := insertDecreasing position f r.latestFirst
  passed := false
  decreasing := pairwise_insertDecreasing position f r.decreasing
  passed_eq := (isEmpty_insertDecreasing position f r.latestFirst).symm

/-! ## Questions -/

/-- The failures by increasing positions. -/
def entries (r : Report) : List (Nat × Failure) :=
  r.latestFirst.reverse

/-- The number of positions with a failure. -/
def errorCount (r : Report) : Nat :=
  r.latestFirst.length

/-- The failure at a position. -/
def failure? (r : Report) (position : Nat) : Option Failure :=
  r.latestFirst.lookup position

/-- The messages by increasing positions. -/
def messages (r : Report) : List String :=
  r.entries.map (·.2.message)

/-! ## Output -/

/-- The key of a position, which counts from one. -/
def label (position : Nat) : String :=
  "argument " ++ toString position

/-- The report as JSON, entries by increasing positions. -/
def toJson (r : Report) : Json :=
  .object [
    ("errors", .object (r.entries.map fun (position, f) => (label position, f.toJson))),
    ("passed", .bool r.passed)]

/-- The report as a value. -/
def toValue (r : Report) : Value :=
  .ofEntries [
    ("errors", .ofEntries (r.entries.map fun (position, f) => (label position, f.toValue))),
    ("passed", .bool r.passed)]

end Report

end CallContract
