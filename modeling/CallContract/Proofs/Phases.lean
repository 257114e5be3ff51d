import CallContract.Proofs.Expectation
import CallContract.Proofs.Matching
import CallContract.Validator

/-!
# The phases of a validation

A validation settles the expectations, then the number of arguments, and then matches. The first two phases do not
look at the mode or at the configuration: they end with a fault that no mismatch has, or hand a call to the matcher
(`validate_phases`).
Faults become exceptions in one place, which keeps category and message (`kind_raise`, `message_raise`).
-/

namespace CallContract

/-! ## Raising -/

namespace Fault

variable (config : Config) (fault : Fault)

@[simp]
theorem kind_raise : (fault.raise config).kind = fault.category := by
  unfold raise Exception.documented
  split <;> rfl

@[simp]
theorem message_raise : (fault.raise config).message = fault.message := by
  unfold raise Exception.documented
  split <;> rfl

theorem message_mismatch (position : Nat) (e : Expectation) (kind : Kind) :
    (mismatch position e kind).message = "Argument number " ++ toString position ++ " must be " ++ e.raw ++ ", " ++
      kind.name ++ " was passed." := rfl

theorem message_noArguments (es : List Expectation) : (noArguments es).message =
    "There were no arguments passed. Function expects arguments to be: (" ++
      ", ".intercalate (es.map Expectation.raw) ++ ")." := rfl

theorem message_callback (kind : Kind) :
    (callback kind).message = "Callback function must be a function, " ++ kind.name ++ " was passed." := rfl

end Fault

/-! ## The number of arguments -/

/-- The categories of faults that a mode may end with behind the expectations. -/
inductive Mode.Raises (mode : Mode) : Exception.Kind → Prop where
  | noArguments : Raises mode .noArguments
  | arityMismatch : Raises mode .arityMismatch
  | argumentType (strict : mode = .strict) : Raises mode .argumentType

namespace Call

variable {mode : Mode} {length : Nat} {es : List Expectation}

theorem checkArity_of_eq_zero (h : length = 0) : checkArity length es = .error (.noArguments es) := by
  rw [checkArity, dif_neg (Nat.not_lt_of_le (Nat.le_of_eq h))]

theorem checkArity_of_ne (hpos : 0 < length) (h : es.length ≠ length) : checkArity length es = .error .arity := by
  rw [checkArity, dif_pos hpos, dif_neg h]

theorem checkArity_of_eq (hpos : 0 < length) (h : es.length = length) :
    checkArity length es = .ok ⟨hpos, h⟩ := by
  rw [checkArity, dif_pos hpos, dif_pos h]

theorem raises_of_checkArity {fault : Fault} (h : checkArity length es = .error fault) :
    mode.Raises fault.category := by
  rcases Nat.eq_zero_or_pos length with hzero | hpos
  · rw [checkArity_of_eq_zero hzero] at h
    obtain rfl := Except.error.inj h
    exact .noArguments
  · by_cases hlength : es.length = length
    · rw [checkArity_of_eq hpos hlength] at h
      exact nomatch h
    · rw [checkArity_of_ne hpos hlength] at h
      obtain rfl := Except.error.inj h
      exact .arityMismatch

/-- The call of arguments with as many expectations. -/
def ofLengthEq (a : Arguments) (es : List Expectation) (h : es.length = a.size) : Call :=
  ⟨a.values, es.toArray, h⟩

end Call

namespace Validator

variable (v : Validator) {mode : Mode} {a : Arguments} {es : List Expectation} {texts : List String}

theorem reportOn_of_size_eq_zero (h : a.size = 0) : v.reportOn mode a es = .error (.noArguments es) := by
  rw [reportOn, Call.pair, Call.checkArity_of_eq_zero h]
  rfl

theorem reportOn_of_ne (hpos : 0 < a.size) (h : es.length ≠ a.size) : v.reportOn mode a es = .error .arity := by
  rw [reportOn, Call.pair, Call.checkArity_of_ne hpos h]
  rfl

theorem reportOn_of_eq (hpos : 0 < a.size) (h : es.length = a.size) :
    v.reportOn mode a es = (Call.ofLengthEq a es h).report mode v.config.indexing := by
  rw [reportOn, Call.pair, Call.checkArity_of_eq hpos h]
  rfl

/-- Parsed expectations lead every validator to one fault before matching, or to matching. -/
theorem reportOn_cases (a : Arguments) (es : List Expectation) :
    (∃ fault : Fault, fault.category ≠ .argumentType ∧
        ∀ (v : Validator) (mode : Mode), v.reportOn mode a es = .error fault) ∨
      ∃ h : es.length = a.size, ∀ (v : Validator) (mode : Mode),
        v.reportOn mode a es = (Call.ofLengthEq a es h).report mode v.config.indexing := by
  rcases Nat.eq_zero_or_pos a.size with hzero | hpos
  · exact Or.inl ⟨.noArguments es, nofun, fun v _ => v.reportOn_of_size_eq_zero hzero⟩
  · by_cases h : es.length = a.size
    · exact Or.inr ⟨h, fun v _ => v.reportOn_of_eq hpos h⟩
    · exact Or.inl ⟨.arity, nofun, fun v _ => v.reportOn_of_ne hpos h⟩

/-! ## The expectations -/

theorem validate_of_parse_error {e : Expectation.Error} (h : Expectation.parseList texts = .error e) :
    v.validate mode a texts = .error (.expectation e) := by
  rw [validate, parse, h]
  rfl

theorem validate_of_parse (h : Expectation.parseList texts = .ok es) :
    v.validate mode a texts = v.reportOn mode a es := by
  rw [validate, parse, h]
  rfl

/-- Texts of expectations lead every validator to one fault before matching, or to matching. -/
theorem validate_phases (a : Arguments) (texts : List String) :
    (∃ fault : Fault, fault.category ≠ .argumentType ∧
        ∀ (v : Validator) (mode : Mode), v.validate mode a texts = .error fault) ∨
      ∃ es, ∃ h : es.length = a.size, Expectation.parseList texts = .ok es ∧ ∀ (v : Validator) (mode : Mode),
        v.validate mode a texts = (Call.ofLengthEq a es h).report mode v.config.indexing := by
  cases hparse : Expectation.parseList texts with
  | error e => exact Or.inl ⟨.expectation e, nofun, fun v _ => v.validate_of_parse_error hparse⟩
  | ok es =>
    rcases reportOn_cases a es with ⟨fault, hkind, hfault⟩ | ⟨h, hmatch⟩
    · exact Or.inl ⟨fault, hkind, fun v mode => (v.validate_of_parse hparse).trans (hfault v mode)⟩
    · exact Or.inr ⟨es, h, rfl, fun v mode => (v.validate_of_parse hparse).trans (hmatch v mode)⟩

/-- One validator's share of the phases. -/
theorem validate_cases (a : Arguments) (texts : List String) :
    (∃ fault, fault.category ≠ .argumentType ∧ ∀ mode, v.validate mode a texts = .error fault) ∨
      ∃ c : Call, ∀ mode, v.validate mode a texts = c.report mode v.config.indexing := by
  rcases validate_phases a texts with ⟨fault, hkind, hfault⟩ | ⟨es, h, _, hmatch⟩
  · exact Or.inl ⟨fault, hkind, hfault v⟩
  · exact Or.inr ⟨Call.ofLengthEq a es h, hmatch v⟩

/-! ## Categories -/

theorem raises_of_reportOn {fault : Fault} (h : v.reportOn mode a es = .error fault) :
    mode.Raises fault.category := by
  rw [reportOn, Call.pair] at h
  cases harity : Call.checkArity a.size es with
  | error fault' =>
    rw [harity] at h
    obtain rfl : fault' = fault := Except.error.inj h
    exact Call.raises_of_checkArity harity
  | ok hsize =>
    rw [harity] at h
    replace h : (Call.ofLengthEq a es hsize.down.2).report mode v.config.indexing = .error fault := h
    obtain ⟨r, hreporting, hstrict⟩ := (Call.ofLengthEq a es hsize.down.2).report_agree v.config.indexing
    cases mode with
    | reporting => exact nomatch hreporting.symm.trans h
    | strict =>
      rcases hstrict with ⟨-, hs⟩ | ⟨i, _, -, hs⟩
      · exact nomatch hs.symm.trans h
      · obtain rfl := Except.error.inj (hs.symm.trans h)
        exact .argumentType rfl

theorem raises_of_validate {fault : Fault} (h : v.validate mode a texts = .error fault) :
    fault.category = .invalidExpectations ∨ mode.Raises fault.category := by
  cases hparse : Expectation.parseList texts with
  | error e =>
    rw [v.validate_of_parse_error hparse] at h
    obtain rfl := Except.error.inj h
    exact Or.inl rfl
  | ok es =>
    rw [v.validate_of_parse hparse] at h
    exact Or.inr (v.raises_of_reportOn h)

/-! ## Operations -/

theorem expect_of_error {fault : Fault} (h : v.validate .strict a texts = .error fault) :
    v.expect a texts = .error (fault.raise v.config) := by
  rw [expect, h]
  rfl

theorem expect_of_ok {r : Report} (h : v.validate .strict a texts = .ok r) : v.expect a texts = .ok r.passed := by
  rw [expect, h]
  rfl

theorem check_of_error {fault : Fault} (h : v.validate .reporting a texts = .error fault) :
    v.check a texts = .error (fault.raise v.config) := by
  rw [check, h]
  rfl

theorem check_of_ok {r : Report} (h : v.validate .reporting a texts = .ok r) : v.check a texts = .ok r := by
  rw [check, h]
  rfl

theorem expectWithM_of_error {m : Type → Type} [Monad m] {e : Exception} (callback : Report → m Unit)
    (h : v.check a texts = .error e) : v.expectWithM a texts callback = pure (.error e) := by
  rw [expectWithM, h]

theorem expectWithM_of_ok {m : Type → Type} [Monad m] {r : Report} (callback : Report → m Unit)
    (h : v.check a texts = .ok r) :
    v.expectWithM a texts callback = (do callback r; pure (.ok r.passed)) := by
  rw [expectWithM, h]

theorem expectWith_of_error {e : Exception} (h : v.check a texts = .error e) :
    v.expectWith a texts = ⟨.error e, []⟩ := by
  rw [expectWith, v.expectWithM_of_error _ h]
  rfl

theorem expectWith_of_ok {r : Report} (h : v.check a texts = .ok r) :
    v.expectWith a texts = ⟨.ok r.passed, [r]⟩ := by
  rw [expectWith, v.expectWithM_of_ok _ h]
  rfl

/-! Against a signature -/

variable {s : Signature}

theorem expectSignature_of_error {fault : Fault} (h : v.reportOn .strict a s.compiled = .error fault) :
    v.expectSignature a s = .error (fault.raise v.config) := by
  rw [expectSignature, h]
  rfl

theorem expectSignature_of_ok {r : Report} (h : v.reportOn .strict a s.compiled = .ok r) :
    v.expectSignature a s = .ok r.passed := by
  rw [expectSignature, h]
  rfl

theorem checkSignature_of_error {fault : Fault} (h : v.reportOn .reporting a s.compiled = .error fault) :
    v.checkSignature a s = .error (fault.raise v.config) := by
  rw [checkSignature, h]
  rfl

theorem checkSignature_of_ok {r : Report} (h : v.reportOn .reporting a s.compiled = .ok r) :
    v.checkSignature a s = .ok r := by
  rw [checkSignature, h]
  rfl

end Validator

end CallContract
