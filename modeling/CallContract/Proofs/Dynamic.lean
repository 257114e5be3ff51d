import CallContract.Proofs.Arguments
import CallContract.Proofs.Phases
import CallContract.Validator.Dynamic

/-!
# Loosely typed inputs

On an object that encodes arguments and an array of strings, the report of a dynamic validation is that of a typed one
(`reportDynamic_eq_validate`): the number of arguments is settled twice, with one answer. What remains is the
callback, which chooses between strict and reporting mode (`expectDynamicM_refines`).
-/

namespace CallContract.Validator

variable (v : Validator) {mode : Mode} {object : Value} {a : Arguments}

/-! ## The report -/

/-- An array of strings is parsed like the list of the strings. -/
theorem parseDynamic_strings (texts : List String) : parseDynamic (.strings texts) = parse texts := by
  have hitem : ∀ text, parseItem (.string text) = (Expectation.parse text).mapError .expectation := fun _ => rfl
  cases texts with
  | nil => rfl
  | cons text texts =>
    show (List.map Value.string (text :: texts)).mapM parseItem = _
    rw [Traversal.mapM_map_mapError hitem]
    rfl

/-- **The dynamic report is the typed one** on an object that encodes arguments and an array of strings. -/
theorem reportDynamic_eq_validate (h : Arguments.ofObject? object = some a) (texts : List String) :
    v.reportDynamic mode object (.strings texts) = v.validate mode a texts := by
  obtain ⟨hlength, htruthy⟩ := Arguments.declaredLength?_of_ofObject? h
  rw [reportDynamic, htruthy, hlength, parseDynamic_strings, h, validate]
  cases parse texts with
  | error fault => rfl
  | ok es =>
    show (Call.checkArity a.size es >>= fun _ => v.reportOn mode a es) = v.reportOn mode a es
    -- the dynamic validation settles the number of arguments before it reads them, and the matcher again
    cases harity : Call.checkArity a.size es with
    | error fault =>
      rw [reportOn, Call.pair, harity]
      rfl
    | ok => rfl

/-! ## The callback -/

/-- A dynamic validation in the terms of a typed one. Functions are called in any monad, so that what they do and
answer is left open. -/
structure DynamicRefines (object : Value) (a : Arguments) (texts : List String) : Prop where
  /-- Without a callback the validation is strict. -/
  falsy : ∀ {m : Type → Type} [Monad m] (call : Function → List Value → m Value) {c : Value}, c.Falsy →
    v.expectDynamicM call object (.strings texts) c = pure (v.expect a texts)
  /-- A failure of `check` is raised, and no function is called. -/
  error : ∀ {m : Type → Type} [Monad m] (call : Function → List Value → m Value) {c : Value} {e : Exception},
    ¬c.Falsy → v.check a texts = .error e → v.expectDynamicM call object (.strings texts) c = pure (.error e)
  /-- A function is called once, with the report of `check`. -/
  function : ∀ {m : Type → Type} [Monad m] (call : Function → List Value → m Value) (f : Function) {r : Report},
    v.check a texts = .ok r → v.expectDynamicM call object (.strings texts) (.function f) =
      (do let _ ← call f [r.toValue]; pure (.ok r.passed))
  /-- Any other callback is an exception that names its kind, whether or not the report has passed. -/
  other : ∀ {m : Type → Type} [Monad m] (call : Function → List Value → m Value) {c : Value} {r : Report},
    ¬c.Falsy → (∀ f, c ≠ .function f) → v.check a texts = .ok r →
      ∃ e : Exception, e.kind = .invalidCallback ∧
        e.message = "Callback function must be a function, " ++ c.kind.name ++ " was passed." ∧
        v.expectDynamicM call object (.strings texts) c = pure (.error e)
  /-- The calls that are kept when functions answer on their own. -/
  delivery : ∀ f : Function, v.expectDynamic object (.strings texts) (.function f) =
    match v.check a texts with
    | .ok r => ⟨.ok r.passed, [⟨f, [r.toValue]⟩]⟩
    | .error e => ⟨.error e, []⟩

/-- The mode that a callback selects. -/
def modeOf (callback : Value) : Mode :=
  if callback.truthy then .reporting else .strict

section Callback

variable {m : Type → Type} [Monad m] (call : Function → List Value → m Value) {texts : List String} {c : Value}
  {expectations : Value} {r : Report} {e : Exception}

/-! How a dynamic validation ends, by its report and its callback. -/

theorem expectDynamicM_eq_error (h : v.raising (v.reportDynamic (modeOf c) object expectations) = .error e) :
    v.expectDynamicM call object expectations c = pure (.error e) := by
  unfold modeOf at h
  simp only [expectDynamicM, h]

theorem expectDynamicM_eq_passed (hc : c.truthy = false)
    (h : v.raising (v.reportDynamic .strict object expectations) = .ok r) :
    v.expectDynamicM call object expectations c = pure (.ok r.passed) := by
  simp only [expectDynamicM, hc, Bool.false_eq_true, if_false, h, Bool.not_false, if_true]

theorem expectDynamicM_eq_call (f : Function)
    (h : v.raising (v.reportDynamic .reporting object expectations) = .ok r) :
    v.expectDynamicM call object expectations (.function f) =
      (do let _ ← call f [r.toValue]; pure (.ok r.passed)) := by
  simp only [expectDynamicM, Value.truthy, if_true, h, Bool.not_true, Bool.false_eq_true, if_false]

theorem expectDynamicM_eq_callback_error (hc : c.truthy = true) (hne : ∀ f, c ≠ .function f)
    (h : v.raising (v.reportDynamic .reporting object expectations) = .ok r) :
    v.expectDynamicM call object expectations c = pure (.error (Fault.raise v.config (.callback c.kind))) := by
  simp only [expectDynamicM, hc, if_true, h, Bool.not_true, Bool.false_eq_true, if_false]

/-! On encoded arguments and an array of strings the report is that of the typed operations. -/

variable (h : Arguments.ofObject? object = some a)
include h

theorem expectDynamicM_of_falsy (hc : c.truthy = false) :
    v.expectDynamicM call object (.strings texts) c = pure (v.expect a texts) := by
  have hreport : v.raising (v.reportDynamic .strict object (.strings texts)) =
      v.raising (v.validate .strict a texts) := congrArg v.raising (v.reportDynamic_eq_validate h texts)
  rw [expect]
  cases hr : v.raising (v.validate .strict a texts) with
  | error e =>
    refine v.expectDynamicM_eq_error call ?_
    rw [modeOf, hc, ← hr]
    exact hreport
  | ok r => exact v.expectDynamicM_eq_passed call hc (hreport.trans hr)

/-- With a callback that is not falsy the report is that of `check`. -/
theorem raising_reportDynamic : v.raising (v.reportDynamic .reporting object (.strings texts)) = v.check a texts :=
  congrArg v.raising (v.reportDynamic_eq_validate h texts)

theorem expectDynamicM_of_error (hc : c.truthy = true) {e : Exception} (hcheck : v.check a texts = .error e) :
    v.expectDynamicM call object (.strings texts) c = pure (.error e) := by
  refine v.expectDynamicM_eq_error call ?_
  rw [modeOf, hc, ← hcheck]
  exact v.raising_reportDynamic h

theorem expectDynamicM_of_ok (f : Function) {r : Report} (hcheck : v.check a texts = .ok r) :
    v.expectDynamicM call object (.strings texts) (.function f) =
      (do let _ ← call f [r.toValue]; pure (.ok r.passed)) :=
  v.expectDynamicM_eq_call call f ((v.raising_reportDynamic h).trans hcheck)

theorem expectDynamicM_of_ne_function (hc : c.truthy = true) (hne : ∀ f, c ≠ .function f) {r : Report}
    (hcheck : v.check a texts = .ok r) :
    v.expectDynamicM call object (.strings texts) c = pure (.error (Fault.raise v.config (.callback c.kind))) :=
  v.expectDynamicM_eq_callback_error call hc hne ((v.raising_reportDynamic h).trans hcheck)

end Callback

/-- **The dynamic boundary refines the typed operations**: on an object that encodes arguments, with any texts and any
callback, it is `expect` or `check`. -/
theorem expectDynamicM_refines (h : Arguments.ofObject? object = some a) (texts : List String) :
    v.DynamicRefines object a texts := by
  refine ⟨fun call _ hc => v.expectDynamicM_of_falsy call h (Value.truthy_eq_false_iff.2 hc),
    fun call _ _ hc => v.expectDynamicM_of_error call h (Value.truthy_eq_true_iff.2 hc),
    fun call f _ => v.expectDynamicM_of_ok call h f, fun call c r hc hne hcheck => ?_, fun f => ?_⟩
  · exact ⟨_, Fault.kind_raise _ _, (Fault.message_raise _ _).trans (Fault.message_callback c.kind),
      v.expectDynamicM_of_ne_function call h (Value.truthy_eq_true_iff.2 hc) hne hcheck⟩
  · cases hcheck : v.check a texts with
    | error e =>
      rw [expectDynamic, v.expectDynamicM_of_error _ h rfl hcheck]
      rfl
    | ok r =>
      rw [expectDynamic, v.expectDynamicM_of_ok _ h f hcheck]
      rfl

/-- An object without an entry for its second argument. -/
theorem expectDynamicM_refines_sparse :
    Arguments.ofObject? (.object [("0", .string "a"), ("length", .ofNat 2)]) =
        some (.ofList [.string "a", .undefined]) ∧
      ({} : Validator).DynamicRefines (.object [("0", .string "a"), ("length", .ofNat 2)])
        (.ofList [.string "a", .undefined]) ["string", "number"] := by
  have hlength : Arguments.declaredLength? (.object [("0", .string "a"), ("length", .ofNat 2)]) = some 2 := rfl
  have h : Arguments.ofObject? (.object [("0", .string "a"), ("length", .ofNat 2)]) =
      some (.ofList [.string "a", .undefined]) := by
    rw [Arguments.ofObject?_object hlength (by decide), Arguments.readEntries_eq]
    rfl
  exact ⟨h, expectDynamicM_refines _ h _⟩

end CallContract.Validator
