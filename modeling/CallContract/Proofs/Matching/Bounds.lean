import CallContract.Proofs.Matching.Iterations
import CallContract.Proofs.Operation

/-!
# Matching reads only what is there

`Call.step` is handed the evidence that an expectation stands at the index it looks at. `Unpaired.step` does without: it
looks the expectation up, and has no result where there is none. On fewer expectations than arguments matching then
ends without a result (`Unpaired.run_eq_none`), which nothing but the comparison of the numbers prevents. After it every
look-up finds what the evidence promises (`Unpaired.step_eq_some`, `Unpaired.run_eq_some`), and so every operation that
matches without evidence has its result (`Operation.runUnpaired_eq_some`).
-/

namespace CallContract

/-! ## Matching without evidence -/

/-- Arguments and expectations of which nobody has compared the numbers. -/
structure Unpaired where
  arguments : Arguments
  expectations : List Expectation

namespace Unpaired

variable (mode : Mode) (indexing : Indexing) (u : Unpaired)

/-- What comes of the position of the cursor, where an expectation stands. -/
def lookAt (cursor : Cursor) (e : Expectation) : Except Fault Cursor :=
  let kind := ((u.arguments.get? cursor.index).getD .undefined).kind
  if e.accepts kind then .ok { cursor with index := cursor.index + 1 }
  else
    let position := cursor.index + 1
    let fault := Fault.mismatch position e kind
    match mode with
    | .strict => .error fault
    | .reporting =>
      let reported := Call.reportedIndex indexing cursor.index
      let data := (u.arguments.get? reported).getD .undefined
      .ok {
        index := reported + 1
        report := cursor.report.record position {
          passedData := data
          passedKind := data.kind
          expects := e.tags
          message := fault.message } }

/-- Looks at one position like `Call.step`, if an expectation stands there. -/
def step (cursor : Cursor) : Option (Except Fault Cursor) :=
  u.expectations[cursor.index]?.map (u.lookAt mode indexing cursor)

/-- Only strict mode ends at a position, and the cursor moves behind the reported argument at most. -/
theorem lookAt_cases (cursor : Cursor) (e : Expectation) :
    (mode = .strict ∧ ∃ fault, u.lookAt mode indexing cursor e = .error fault) ∨
      ∃ next, u.lookAt mode indexing cursor e = .ok next ∧ cursor.index < next.index ∧
        next.index ≤ Call.reportedIndex indexing cursor.index + 1 := by
  have hle := Call.le_reportedIndex indexing cursor.index
  unfold lookAt
  by_cases haccepts : e.accepts ((u.arguments.get? cursor.index).getD .undefined).kind = true
  · refine Or.inr ⟨_, if_pos haccepts, ?_, ?_⟩
    · exact Nat.lt_succ_self cursor.index
    · exact Nat.succ_le_succ hle
  · cases mode with
    | strict => exact Or.inl ⟨rfl, _, if_neg haccepts⟩
    | reporting =>
      refine Or.inr ⟨_, if_neg haccepts, ?_, ?_⟩
      · exact Nat.lt_succ_of_le hle
      · exact Nat.le_refl _

theorem step_index_lt {cursor next : Cursor} (hs : u.step mode indexing cursor = some (.ok next)) :
    cursor.index < next.index := by
  obtain ⟨e, -, he⟩ := Option.map_eq_some_iff.1 hs
  rcases u.lookAt_cases mode indexing cursor e with ⟨-, fault, hfault⟩ | ⟨moved, hmoved, hlt, -⟩
  · exact nomatch hfault.symm.trans he
  · rwa [Except.ok.inj (hmoved.symm.trans he)] at hlt

/-- The report when all positions from the cursor on have been looked at. There is none, and no fault either, when an
expectation is looked for where none stands. -/
def run (cursor : Cursor) : Option (Except Fault Report) :=
  if cursor.index < u.arguments.size then
    match _moved : u.step mode indexing cursor with
    | none => none
    | some (.error fault) => some (.error fault)
    | some (.ok next) => run next
  else some (.ok cursor.report)
termination_by u.arguments.size - cursor.index
decreasing_by
  have := step_index_lt mode indexing u _moved
  omega

variable {u} in
/-- Where the expectations end before the arguments, reporting looks for one that is not there. -/
theorem run_eq_none (h : u.expectations.length < u.arguments.size) {cursor : Cursor}
    (hcursor : cursor.index ≤ u.expectations.length) : u.run .reporting .consistent cursor = none := by
  fun_induction run .reporting .consistent u cursor with
  | case1 => rfl
  | case2 cursor _ fault hs =>
    obtain ⟨e, -, he⟩ := Option.map_eq_some_iff.1 hs
    rcases u.lookAt_cases .reporting .consistent cursor e with ⟨hmode, -⟩ | ⟨moved, hmoved, -⟩
    · exact nomatch hmode
    · exact nomatch hmoved.symm.trans he
  | case3 cursor _ next hs ih =>
    obtain ⟨e, he, hnext⟩ := Option.map_eq_some_iff.1 hs
    obtain ⟨hlt, -⟩ := List.getElem?_eq_some_iff.1 he
    rcases u.lookAt_cases .reporting .consistent cursor e with ⟨hmode, -⟩ | ⟨moved, hmoved, -, hle⟩
    · exact nomatch hmode
    · obtain rfl : moved = next := Except.ok.inj (hmoved.symm.trans hnext)
      exact ih (Nat.le_trans hle hlt)
  | case4 cursor hsize => exact absurd (Nat.lt_of_le_of_lt hcursor h) hsize

end Unpaired

/-! ## After the comparison -/

namespace Call

variable {a : Arguments} {es : List Expectation} {c : Call}

theorem pair_eq_ok_iff : pair a es = .ok c ↔ 0 < a.size ∧ ∃ h, c = ofLengthEq a es h := by
  constructor
  · intro hpair
    rw [pair] at hpair
    cases harity : checkArity a.size es with
    | error fault =>
      rw [harity] at hpair
      cases hpair
    | ok evidence =>
      rw [harity] at hpair
      exact ⟨evidence.down.1, evidence.down.2, (Except.ok.inj hpair).symm⟩
  · rintro ⟨hpos, h, rfl⟩
    rw [pair, checkArity_of_eq hpos h]
    rfl

end Call

namespace Unpaired

variable (mode : Mode) (indexing : Indexing) {a : Arguments} {es : List Expectation} (hlength : es.length = a.size)
include hlength

/-- Below the number of arguments the look-up finds what the evidence promises. -/
theorem step_eq_some {cursor : Cursor} (h : cursor.index < a.size) :
    step mode indexing ⟨a, es⟩ cursor = some ((Call.ofLengthEq a es hlength).step mode indexing cursor h) := by
  have hlt : cursor.index < es.length := hlength ▸ h
  have he : es[cursor.index]? = some es[cursor.index] := List.getElem?_eq_getElem hlt
  have hvalue : a.get? cursor.index = some a.values[cursor.index] := Array.getElem?_eq_getElem h
  rw [step, he, Option.map_some, lookAt, hvalue]
  cases mode <;> rfl

theorem run_eq_some (cursor : Cursor) :
    run mode indexing ⟨a, es⟩ cursor = some ((Call.ofLengthEq a es hlength).run mode indexing cursor) := by
  fun_induction Call.run mode indexing (Call.ofLengthEq a es hlength) cursor with
  | case1 cursor h fault hs =>
    have hstep := step_eq_some mode indexing hlength h
    rw [run, if_pos (show cursor.index < a.size from h)]
    split <;> simp_all
  | case2 cursor h next hs ih =>
    have hstep := step_eq_some mode indexing hlength h
    rw [run, if_pos (show cursor.index < a.size from h)]
    split <;> simp_all
  | case3 cursor h => rw [run, if_neg (show ¬cursor.index < a.size from h)]

end Unpaired

/-- The report on arguments and parsed expectations like `Validator.reportOn`, where matching has no evidence. -/
def Validator.reportUnpaired (v : Validator) (mode : Mode) (a : Arguments) (es : List Expectation) :
    ExceptT Fault Option Report := do
  let _ ← Call.checkArity a.size es
  .mk (Unpaired.run mode v.config.indexing ⟨a, es⟩ ⟨0, .empty⟩)

/-- Evidence or not, the report is the same. -/
theorem Validator.reportUnpaired_eq (v : Validator) (mode : Mode) (a : Arguments) (es : List Expectation) :
    v.reportUnpaired mode a es = .mk (some (v.reportOn mode a es)) := by
  rw [reportUnpaired, reportOn, Call.pair]
  cases Call.checkArity a.size es with
  | error fault => rfl
  | ok evidence => exact Unpaired.run_eq_some mode v.config.indexing evidence.down.2 ⟨0, .empty⟩

/-! ## Operations -/

namespace Validator

variable (v : Validator) (mode : Mode) (object expectations : Value)

/-- The report on the arguments that an object encodes like `reportDynamic`, where `matching` may have no result. -/
def reportDynamicVia (matching : Arguments → List Expectation → ExceptT Fault Option Report) :
    ExceptT Fault Option Report := do
  if !object.truthy then throw .argumentsMissing
  let some length := Arguments.declaredLength? object | throw .argumentsShape
  let es ← parseDynamic expectations
  let _ ← Call.checkArity length es
  let some a := Arguments.ofObject? object | throw .argumentsShape
  matching a es

theorem reportDynamicVia_reportOn :
    reportDynamicVia object expectations (fun a es => .mk (some (v.reportOn mode a es))) =
      .mk (some (v.reportDynamic mode object expectations)) := by
  rw [reportDynamicVia, reportDynamic]
  cases object.truthy with
  | false => rfl
  | true =>
    cases Arguments.declaredLength? object with
    | none => rfl
    | some length =>
      cases parseDynamic expectations with
      | error fault => rfl
      | ok es =>
        show (liftM (Call.checkArity length es) >>= _) = ExceptT.mk (some (Call.checkArity length es >>= _))
        cases Call.checkArity length es with
        | error fault => rfl
        | ok evidence => cases Arguments.ofObject? object <;> rfl

end Validator

namespace Operation

variable {m : Type → Type} {α : Type}

/-- The report that an operation answers to like `Operation.report`, where `matching` may have no result. -/
def reportVia (matching : Mode → Arguments → List Expectation → ExceptT Fault Option Report) :
    Operation m α → ExceptT Fault Option Report
  | .expect a texts => do matching .strict a (← Validator.parse texts)
  | .expectWith a texts _ | .check a texts => do matching .reporting a (← Validator.parse texts)
  | .expectSignature a s => matching .strict a s.compiled
  | .checkSignature a s => matching .reporting a s.compiled
  | .expectDynamic _ object expectations callback => do
    let report ← Validator.reportDynamicVia object expectations (matching (Validator.modeOf callback))
    match callbackFault? callback with
    | some fault => throw fault
    | none => pure report

/-- Around the matching nothing has changed. -/
theorem reportVia_reportOn (v : Validator) (op : Operation m α) :
    op.reportVia (fun mode a es => .mk (some (v.reportOn mode a es))) = .mk (some (op.report v)) := by
  cases op with
  | expect a texts | expectWith a texts callback | check a texts =>
    rw [reportVia, report, Validator.validate]
    cases Validator.parse texts <;> rfl
  | expectSignature a s | checkSignature a s => rfl
  | expectDynamic call object expectations callback =>
    rw [reportVia, report, Validator.reportDynamicVia_reportOn]
    cases v.reportDynamic (Validator.modeOf callback) object expectations with
    | error fault => rfl
    | ok r => cases callbackFault? callback <;> rfl

/-- Asks a validator like `Operation.run`, where matching has no evidence and may have no result. -/
def runUnpaired [Monad m] (v : Validator) (op : Operation m α) : Option (m (Except Exception α)) :=
  (op.reportVia v.reportUnpaired).run.map fun
    | .error fault => pure (.error (fault.raise v.config))
    | .ok report => op.answer report

/-- **No operation needs the evidence**: it has a result without it, and the same. -/
theorem runUnpaired_eq_some [Monad m] (v : Validator) (op : Operation m α) : op.runUnpaired v = some (op.run v) := by
  have hmatching : v.reportUnpaired = fun mode a es => ExceptT.mk (some (v.reportOn mode a es)) := by
    funext mode a es
    exact v.reportUnpaired_eq mode a es
  rw [runUnpaired, hmatching, reportVia_reportOn]
  cases hreport : op.report v with
  | error fault => exact congrArg some (run_of_report_error hreport).symm
  | ok r => exact congrArg some (run_of_report hreport).symm

end Operation

/-! ## Bounds and progress -/

/-- What holds of matching throughout, once arguments and expectations are paired. -/
structure Call.StaysInBounds (mode : Mode) (indexing : Indexing) (a : Arguments) (es : List Expectation) (c : Call) :
    Prop where
  paired : c.values = a.values ∧ c.expectations.toList = es
  /-- An iteration looks at an index below both numbers, and the look-up without evidence is that with it. -/
  in_bounds : ∀ k cursor, c.Iterates mode indexing k cursor → ∀ h : cursor.index < c.values.size,
    cursor.index < a.size ∧ cursor.index < es.length ∧
      Unpaired.step mode indexing ⟨a, es⟩ cursor = some (c.step mode indexing cursor h)
  advances : ∀ k cursor next, c.Iterates mode indexing k cursor → ∀ h : cursor.index < c.values.size,
    c.step mode indexing cursor h = .ok next → Call.Advances cursor next
  recorded_le : ∀ k cursor, c.Iterates mode indexing k cursor →
    ∀ p f, cursor.report.failure? p = some f → p ≤ cursor.index
  iterations_le : ∀ k cursor, c.Iterates mode indexing k cursor → k ≤ a.size
  ends : c.Ends mode indexing (c.report mode indexing)

theorem Call.staysInBounds_of_pair (mode : Mode) (indexing : Indexing) {a : Arguments} {es : List Expectation}
    {c : Call} (h : pair a es = .ok c) : c.StaysInBounds mode indexing a es := by
  obtain ⟨-, hlength, rfl⟩ := pair_eq_ok_iff.1 h
  exact {
    paired := ⟨rfl, rfl⟩
    in_bounds := fun k cursor _ hlt =>
      ⟨hlt, hlength.symm ▸ hlt, Unpaired.step_eq_some mode indexing hlength hlt⟩
    advances := fun k cursor next hreached _ hs => advances_of_step hreached hs
    recorded_le := fun k cursor hreached => hreached.onTrack.recorded_le
    iterations_le := fun k cursor hreached => hreached.onTrack.iterations_le_size
    ends := ends_report mode indexing _ }

/-- **Matching stays in bounds and makes progress** in either mode and under either indexing, whatever operation it is
done for; without the comparison of the numbers it would not stay in bounds. -/
theorem matching_in_bounds :
    (∀ (mode : Mode) (indexing : Indexing) (a : Arguments) (es : List Expectation) (c : Call),
        Call.pair a es = .ok c → c.StaysInBounds mode indexing a es) ∧
      (∀ (m : Type → Type) [Monad m] (α : Type) (v : Validator) (op : Operation m α),
        op.runUnpaired v = some (op.run v)) ∧
      ∀ u : Unpaired, u.expectations.length < u.arguments.size →
        u.run .reporting .consistent ⟨0, .empty⟩ = none :=
  ⟨fun mode indexing _ _ _ h => Call.staysInBounds_of_pair mode indexing h, fun _ _ _ v op => op.runUnpaired_eq_some v,
    fun _ h => Unpaired.run_eq_none h (Nat.zero_le _)⟩

/-- Three mismatches of which legacy indexing records the first and the last, in two iterations that end one behind the
end; an operation on a signature that was never compiled; and expectations that end early. -/
theorem matching_in_bounds_past_end :
    let a := Arguments.ofList [.ofNat 1, .string "b", .bool true]
    let es : List Expectation := [⟨.string, [.object]⟩, ⟨.number, []⟩, ⟨.string, []⟩]
    let uncompiled : Operation Id Report := .checkSignature a ⟨"f", none, ["string", "number", "string"], []⟩
    ∃ c, Call.pair a es = .ok c ∧ c.StaysInBounds .reporting .legacy a es ∧
      (∃ last, c.Iterates .reporting .legacy 2 last ∧ last.index = 4) ∧
      uncompiled.runUnpaired {} = some (.error (Fault.arity.raise {})) ∧
      Unpaired.run .reporting .consistent ⟨a, [⟨.any, []⟩]⟩ ⟨0, .empty⟩ = none := by
  intro a es uncompiled
  have hpair : Call.pair a es = .ok (Call.ofLengthEq a es rfl) := rfl
  obtain ⟨hloop, hoperations, hunpaired⟩ := matching_in_bounds
  refine ⟨_, hpair, hloop _ _ _ _ _ hpair, ?_, ?_, hunpaired _ (by decide)⟩
  · have hfirst : (Call.ofLengthEq a es rfl).mismatches 0 = true := rfl
    have hthird : (Call.ofLengthEq a es rfl).mismatches 2 = true := rfl
    refine ⟨_, .next (.next .start (Call.step_reporting_of_mismatch (h := by decide) hfirst))
      (Call.step_reporting_of_mismatch (h := by decide) hthird), rfl⟩
  · rw [hoperations]
    rfl

end CallContract
