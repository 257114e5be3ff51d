import CallContract.Proofs.Precedence
import CallContract.Proofs.Text.Pieces

/-!
# Operations and their exceptions

An `Operation` is what a validator can be asked for, with its inputs. All operations are one: they look for a report
(`Operation.report`), raise the fault that stops them (`run_of_report_error`), and else answer to the report
(`Operation.answer`, `run_of_report`). So what holds of every exception is said of faults: which categories an operation
may raise (`Operation.MayRaise`), and that an exception links to the section of its category (`Exception.Documented`).
`exceptions_documented` puts both together, and adds that the root of the documentation shows in the links only.
-/

namespace CallContract

/-! ## Links -/

/-- An exception with a category and a message that links to the section of the category. The link joins section and
root by one `#`, whatever number of them the root ends with. -/
structure Exception.Documented (docsUrl : String) (kind : Exception.Kind) (message : String) (e : Exception) :
    Prop where
  kind_eq : e.kind = kind
  message_eq : e.message = message
  link : ∃ root n anchor, docsUrl = root ++ String.ofList (List.replicate n '#') ∧
    root.toList.getLast? ≠ some '#' ∧ kind.anchor? = some anchor ∧ e.helpUrl = some (root ++ "#" ++ anchor) ∧
    e.text = "ArgumentException: " ++ message ++ "\n\nFor more info, go to " ++ (root ++ "#" ++ anchor)

theorem Exception.text_of_helpUrl (kind : Exception.Kind) (message url : String) :
    (⟨kind, message, some url⟩ : Exception).text =
      "ArgumentException: " ++ message ++ "\n\nFor more info, go to " ++ url := by
  rw [String.append_assoc]
  rfl

namespace Fault

/-- There is a section on every category of a fault. -/
theorem exists_anchor (fault : Fault) : ∃ anchor, fault.category.anchor? = some anchor := by
  cases fault <;> exact ⟨_, rfl⟩

theorem documented_raise (config : Config) (fault : Fault) :
    (fault.raise config).Documented config.docsUrl fault.category fault.message := by
  obtain ⟨anchor, hanchor⟩ := fault.exists_anchor
  obtain ⟨⟨n, hroot⟩, hlast⟩ := Text.dropTrailing_eq_iff.1 (rfl : Text.dropTrailing '#' config.docsUrl = _)
  have hraise : fault.raise config =
      ⟨fault.category, fault.message, some (Text.dropTrailing '#' config.docsUrl ++ "#" ++ anchor)⟩ := by
    rw [raise, Exception.documented, hanchor]
  refine ⟨kind_raise config fault, message_raise config fault, _, n, anchor, hroot, hlast, hanchor, ?_, ?_⟩
  · rw [hraise]
  · rw [hraise, Exception.text_of_helpUrl]

/-- A root that ends with two separators. -/
example : (arity.raise { docsUrl := "https://docs##" }).helpUrl = some "https://docs#function-arguments" := by
  decide

end Fault

/-! ## Operations -/

/-- What a validator can be asked for, with the type of the answer. Callbacks and functions act in a monad `m`. -/
inductive Operation (m : Type → Type) : Type → Type where
  | expect (a : Arguments) (texts : List String) : Operation m Bool
  | expectWith (a : Arguments) (texts : List String) (callback : Report → m Unit) : Operation m Bool
  | check (a : Arguments) (texts : List String) : Operation m Report
  | expectSignature (a : Arguments) (s : Signature) : Operation m Bool
  | checkSignature (a : Arguments) (s : Signature) : Operation m Report
  | expectDynamic (call : Function → List Value → m Value) (object expectations callback : Value) : Operation m Bool

namespace Operation

variable {m : Type → Type} {α : Type}

/-- Asks a validator. -/
def run [Monad m] (v : Validator) : Operation m α → m (Except Exception α)
  | .expect a texts => pure (v.expect a texts)
  | .expectWith a texts callback => v.expectWithM a texts callback
  | .check a texts => pure (v.check a texts)
  | .expectSignature a s => pure (v.expectSignature a s)
  | .checkSignature a s => pure (v.checkSignature a s)
  | .expectDynamic call object expectations callback => v.expectDynamicM call object expectations callback

/-- The calls are kept by a callback that does nothing else. -/
example (v : Validator) (a : Arguments) (texts : List String) :
    v.expectWith a texts = .ofRun (run v (.expectWith a texts fun report => modify (· ++ [report]))) := rfl

/-- The callback of a dynamic validation. -/
def callback? : Operation m α → Option Value
  | .expectDynamic _ _ _ callback => some callback
  | _ => none

/-- A mismatch ends the operation. -/
def IsStrict : Operation m α → Prop
  | .expect .. | .expectSignature .. => True
  | .expectDynamic _ _ _ callback => callback.Falsy
  | .expectWith .. | .check .. | .checkSignature .. => False

/-- The categories of exceptions that an operation may raise. -/
def MayRaise (op : Operation m α) : Exception.Kind → Prop
  | .missingArguments => ∃ callback, op.callback? = some callback
  | .invalidCallback =>
    ∃ callback, op.callback? = some callback ∧ ¬callback.Falsy ∧ ∀ f, callback ≠ .function f
  | .argumentType => op.IsStrict
  | .invalidExpectations | .noArguments | .arityMismatch => True
  | .general => False

/-- What an operation does with a report: a callback is given it, and the answer is the report or whether it has
passed. -/
def answer [Monad m] : Operation m α → Report → m (Except Exception α)
  | .expect .., report | .expectSignature .., report => pure (.ok report.passed)
  | .check .., report | .checkSignature .., report => pure (.ok report)
  | .expectWith _ _ callback, report => do
    callback report
    pure (.ok report.passed)
  | .expectDynamic call _ _ (.function f), report => do
    let _ ← call f [report.toValue]
    pure (.ok report.passed)
  | .expectDynamic .., report => pure (.ok report.passed)

/-! ## Faults -/

/-- The fault of a callback that is given and is not a function. -/
def callbackFault? (callback : Value) : Option Fault :=
  if callback.truthy then
    match callback with
    | .function _ => none
    | other => some (.callback other.kind)
  else none

/-- The report that an operation answers to, or the fault that stops it. -/
def report (v : Validator) : Operation m α → Except Fault Report
  | .expect a texts => v.validate .strict a texts
  | .expectWith a texts _ | .check a texts => v.validate .reporting a texts
  | .expectSignature a s => v.reportOn .strict a s.compiled
  | .checkSignature a s => v.reportOn .reporting a s.compiled
  | .expectDynamic _ object expectations callback =>
    match v.reportDynamic (Validator.modeOf callback) object expectations, callbackFault? callback with
    | .error fault, _ => .error fault
    | .ok _, some fault => .error fault
    | .ok report, none => .ok report

/-- Of the configuration a report depends on the indexing alone. -/
theorem report_congr {v v' : Validator} (h : v.config.indexing = v'.config.indexing) (op : Operation m α) :
    op.report v = op.report v' := by
  obtain ⟨docsUrl, indexing⟩ := v
  obtain ⟨docsUrl', indexing'⟩ := v'
  simp only at h
  subst h
  cases op <;> rfl

theorem callbackFault?_eq_some_iff {callback : Value} {fault : Fault} : callbackFault? callback = some fault ↔
    callback.truthy = true ∧ (∀ f, callback ≠ .function f) ∧ fault = .callback callback.kind := by
  unfold callbackFault?
  cases callback.truthy with
  | false => simp
  | true => cases callback <;> simp [eq_comm]

theorem callbackFault?_eq_none_iff {callback : Value} :
    callbackFault? callback = none ↔ callback.truthy = false ∨ ∃ f, callback = .function f := by
  unfold callbackFault?
  cases callback.truthy with
  | false => simp
  | true => cases callback <;> simp

section Dynamic

variable {v : Validator} {call : Function → List Value → m Value} {object expectations callback : Value} {fault : Fault}
  {r : Report}

theorem report_expectDynamic_eq_error_iff : (expectDynamic call object expectations callback).report v = .error fault ↔
    v.reportDynamic (Validator.modeOf callback) object expectations = .error fault ∨
      (∃ r, v.reportDynamic (Validator.modeOf callback) object expectations = .ok r) ∧
        callbackFault? callback = some fault := by
  simp only [report]
  cases v.reportDynamic (Validator.modeOf callback) object expectations <;> cases callbackFault? callback <;> simp

theorem report_expectDynamic_eq_ok_iff : (expectDynamic call object expectations callback).report v = .ok r ↔
    v.reportDynamic (Validator.modeOf callback) object expectations = .ok r ∧ callbackFault? callback = none := by
  simp only [report]
  cases v.reportDynamic (Validator.modeOf callback) object expectations <;> cases callbackFault? callback <;> simp

end Dynamic

section Run

variable [Monad m] {v : Validator} {op : Operation m α} {fault : Fault} {r : Report}

/-- A fault is raised, and nothing is called. -/
theorem run_of_report_error (h : op.report v = .error fault) : op.run v = pure (.error (fault.raise v.config)) := by
  cases op with
  | expect a texts => exact congrArg pure (v.expect_of_error h)
  | expectWith a texts callback => exact v.expectWithM_of_error callback (v.check_of_error h)
  | check a texts => exact congrArg pure (v.check_of_error h)
  | expectSignature a s => exact congrArg pure (v.expectSignature_of_error h)
  | checkSignature a s => exact congrArg pure (v.checkSignature_of_error h)
  | expectDynamic call object expectations callback =>
    rcases report_expectDynamic_eq_error_iff.1 h with hreport | ⟨⟨r, hreport⟩, hcallback⟩
    · exact v.expectDynamicM_eq_error call (congrArg v.raising hreport)
    · obtain ⟨hgiven, hne, rfl⟩ := callbackFault?_eq_some_iff.1 hcallback
      simp only [Validator.modeOf, hgiven, if_true] at hreport
      exact v.expectDynamicM_eq_callback_error call hgiven hne (congrArg v.raising hreport)

/-- A report is answered. -/
theorem run_of_report (h : op.report v = .ok r) : op.run v = op.answer r := by
  cases op with
  | expect a texts => exact congrArg pure (v.expect_of_ok h)
  | expectWith a texts callback => exact v.expectWithM_of_ok callback (v.check_of_ok h)
  | check a texts => exact congrArg pure (v.check_of_ok h)
  | expectSignature a s => exact congrArg pure (v.expectSignature_of_ok h)
  | checkSignature a s => exact congrArg pure (v.checkSignature_of_ok h)
  | expectDynamic call object expectations callback =>
    obtain ⟨hreport, hcallback⟩ := report_expectDynamic_eq_ok_iff.1 h
    rcases callbackFault?_eq_none_iff.1 hcallback with hfalsy | ⟨f, rfl⟩
    · simp only [Validator.modeOf, hfalsy, Bool.false_eq_true, if_false] at hreport
      have hpassed := v.expectDynamicM_eq_passed call hfalsy (congrArg v.raising hreport)
      -- a function is never falsy, so that the answer is the one without a call
      cases callback with
      | function f => simp [Value.truthy] at hfalsy
      | _ => exact hpassed
    · exact v.expectDynamicM_eq_call call f (congrArg v.raising hreport)

end Run

end Operation

/-! ## Categories -/

namespace Validator

variable {v : Validator} {mode : Mode} {object expectations : Value} {fault : Fault}

theorem category_of_parseItem {item : Value} (h : parseItem item = .error fault) :
    fault.category = .invalidExpectations := by
  by_cases hstring : ∃ text, item = .string text
  · obtain ⟨text, rfl⟩ := hstring
    rw [parseItem_string] at h
    cases hparse : Expectation.parse text with
    | ok e => simp [hparse, Except.mapError] at h
    | error e =>
      rw [hparse] at h
      cases h
      rfl
  · rw [parseItem_of_ne_string fun text htext => hstring ⟨text, htext⟩] at h
    cases h
    rfl

theorem category_of_parseDynamic (h : parseDynamic expectations = .error fault) :
    fault.category = .invalidExpectations := by
  unfold parseDynamic at h
  split at h
  · cases h
    rfl
  split at h
  · rename_i items
    split at h
    · cases h
      rfl
    · obtain ⟨_, item, _, _, _, hitem⟩ := Traversal.mapM_eq_error_iff.1 h
      exact category_of_parseItem hitem
  · cases h
    rfl

/-- A dynamic report is that of the arguments and the expectations that were read, or there is a fault before it: of
what was to be read, or of the numbers, which does not look at the mode. -/
theorem reportDynamic_cases (v : Validator) (mode : Mode) (object expectations : Value) :
    (∃ fault : Fault, (fault.category = .missingArguments ∨ fault.category = .invalidExpectations ∨
        ∀ mode : Mode, mode.Raises fault.category) ∧ v.reportDynamic mode object expectations = .error fault) ∨
      ∃ a es, Arguments.ofObject? object = some a ∧ parseDynamic expectations = .ok es ∧
        v.reportDynamic mode object expectations = v.reportOn mode a es := by
  by_cases hfalsy : object.Falsy
  · exact Or.inl ⟨.argumentsMissing, Or.inl rfl, v.reportDynamic_of_falsy hfalsy⟩
  by_cases hdeclares : ∃ n, Arguments.Declares object n
  · obtain ⟨n, hn⟩ := hdeclares
    cases hparse : parseDynamic expectations with
    | error fault =>
      exact Or.inl ⟨fault, Or.inr (Or.inl (category_of_parseDynamic hparse)), v.reportDynamic_of_parse_error hn hparse⟩
    | ok es =>
      cases harity : Call.checkArity n es with
      | error fault =>
        exact Or.inl ⟨fault, Or.inr (Or.inr fun _ => Call.raises_of_checkArity harity),
          v.reportDynamic_of_arity_error hn hparse harity⟩
      | ok evidence =>
        rw [v.reportDynamic_of_declares hn]
        simp only [hparse, harity, bind, Except.bind]
        cases hobject : Arguments.ofObject? object with
        | none => exact Or.inl ⟨.argumentsShape, Or.inl rfl, rfl⟩
        | some a => exact Or.inr ⟨a, es, rfl, rfl, rfl⟩
  · exact Or.inl ⟨.argumentsShape, Or.inl rfl, v.reportDynamic_of_undeclared hfalsy fun n hn => hdeclares ⟨n, hn⟩⟩

theorem raises_of_reportDynamic (h : v.reportDynamic mode object expectations = .error fault) :
    fault.category = .missingArguments ∨ fault.category = .invalidExpectations ∨ mode.Raises fault.category := by
  rcases v.reportDynamic_cases mode object expectations with ⟨other, hother, hfault⟩ | ⟨a, es, -, -, hreport⟩
  · obtain rfl := Except.error.inj (hfault.symm.trans h)
    exact hother.imp_right (Or.imp_right fun hraises => hraises mode)
  · exact Or.inr (Or.inr (v.raises_of_reportOn (hreport.symm.trans h)))

end Validator

namespace Operation

variable {m : Type → Type} {α : Type} {v : Validator} {op : Operation m α} {fault : Fault}

theorem mayRaise_of_raises {mode : Mode} {kind : Exception.Kind} (hstrict : mode = .strict → op.IsStrict)
    (h : mode.Raises kind) : op.MayRaise kind := by
  cases h with
  | noArguments | arityMismatch => trivial
  | argumentType hmode => exact hstrict hmode

/-- What stops an operation is a fault that it may raise. -/
theorem mayRaise_of_report (h : op.report v = .error fault) : op.MayRaise fault.category := by
  have hvalidate {mode : Mode} {a : Arguments} {texts : List String} (hmode : mode = .strict → op.IsStrict)
      (hreport : v.validate mode a texts = .error fault) : op.MayRaise fault.category := by
    rcases v.raises_of_validate hreport with hcategory | hraises
    · rw [hcategory]
      trivial
    · exact mayRaise_of_raises hmode hraises
  have hreporting : Mode.reporting = .strict → op.IsStrict := nofun
  cases op with
  | expect a texts => exact hvalidate (fun _ => trivial) h
  | expectWith a texts callback => exact hvalidate hreporting h
  | check a texts => exact hvalidate hreporting h
  | expectSignature a s => exact mayRaise_of_raises (fun _ => trivial) (v.raises_of_reportOn h)
  | checkSignature a s => exact mayRaise_of_raises hreporting (v.raises_of_reportOn h)
  | expectDynamic call object expectations callback =>
    rcases report_expectDynamic_eq_error_iff.1 h with hreport | ⟨-, hcallback⟩
    · rcases Validator.raises_of_reportDynamic hreport with hcategory | hcategory | hraises
      · rw [hcategory]
        exact ⟨callback, rfl⟩
      · rw [hcategory]
        trivial
      · refine mayRaise_of_raises (fun hstrict => ?_) hraises
        unfold Validator.modeOf at hstrict
        exact Value.truthy_eq_false_iff.1 (by simpa using hstrict)
    · obtain ⟨hgiven, hne, rfl⟩ := callbackFault?_eq_some_iff.1 hcallback
      exact ⟨callback, rfl, Value.truthy_eq_true_iff.1 hgiven, hne⟩

/-- **Every exception has a category and links to its section**, and the category is one that the operation may raise.
Validators that differ in the root of their documentation alone raise exceptions that differ in the link alone, or give
the same answer to the same report. -/
theorem exceptions_documented [Monad m] (op : Operation m α) (indexing : Indexing) :
    (∃ kind message, op.MayRaise kind ∧ ∀ docsUrl, ∃ e : Exception, e.Documented docsUrl kind message ∧
        op.run { config := { docsUrl, indexing } } = pure (.error e)) ∨
      ∃ r, ∀ docsUrl, op.run { config := { docsUrl, indexing } } = op.answer r := by
  have hcongr : ∀ docsUrl, op.report { config := { docsUrl, indexing } } = op.report { config := { indexing } } :=
    fun _ => report_congr rfl op
  cases hreport : op.report { config := { indexing } } with
  | error fault =>
    refine Or.inl ⟨fault.category, fault.message, mayRaise_of_report hreport, fun docsUrl => ?_⟩
    exact ⟨_, fault.documented_raise { docsUrl, indexing }, run_of_report_error ((hcongr docsUrl).trans hreport)⟩
  | ok r => exact Or.inr ⟨r, fun docsUrl => run_of_report ((hcongr docsUrl).trans hreport)⟩

end Operation

end CallContract
