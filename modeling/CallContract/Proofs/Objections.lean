import CallContract.Proofs.Indexing
import CallContract.Proofs.Modes

/-!
# What is settled before matching

A validation objects to the expectations first, then to the absence of arguments, then to their number. `Objection`
lists the phases in order: each constructor asks for what the phases before it have accepted. Nothing in it looks at
the arguments but for their number. `phases_in_order` says that every operation raises the objection, if there is one,
and calls nothing; without one the arguments are matched.
-/

namespace CallContract

/-- The objections to `count` arguments and the texts of expectations in the order in which they are raised, with
category and message. -/
inductive Objection (count : Nat) (texts : List String) : Exception.Kind → String → Prop where
  | missing (none_given : texts = []) : Objection count texts .invalidExpectations "Expectations are required."
  | segment {before after : List String} {text segment : String} (split : texts = before ++ text :: after)
      (wellFormed : ∀ t ∈ before, Expectation.WellFormed t) (bad : Expectation.FirstBadSegment text segment) :
    Objection count texts .invalidExpectations
      ("A malformed string of expectation was detected - `" ++ segment ++ "`.")
  | noArguments (given : texts ≠ []) (wellFormed : ∀ t ∈ texts, Expectation.WellFormed t) (empty : count = 0) :
    Objection count texts .noArguments
      ("There were no arguments passed. Function expects arguments to be: (" ++ ", ".intercalate texts ++ ").")
  | arity (given : texts ≠ []) (wellFormed : ∀ t ∈ texts, Expectation.WellFormed t) (nonempty : count ≠ 0)
      (length_ne : texts.length ≠ count) :
    Objection count texts .arityMismatch
      "The number of function arguments does not match the number of expected arguments."

/-- A word that is not in the vocabulary comes before the missing arguments and the later texts. -/
example : Objection 0 ["string", "number|text|object", ""] .invalidExpectations
    "A malformed string of expectation was detected - `text`." :=
  @Objection.segment _ _ ["string"] [""] "number|text|object" "text" rfl (by decide)
    ⟨["number"], ["object"], by decide, by decide, by decide⟩

namespace Objection

variable {count : Nat} {texts : List String} {kind : Exception.Kind} {message : String}

/-- Without an objection the texts fit the arguments. -/
theorem fits_of_forall_not (h : ∀ kind message, ¬Objection count texts kind message) : Fits count texts := by
  have hgiven : texts ≠ [] := fun hnil => h _ _ (.missing hnil)
  have hwell : ∀ t ∈ texts, Expectation.WellFormed t := by
    by_contra hbad
    obtain ⟨before, text, after, hsplit, hbefore, htext⟩ := Expectation.exists_append_of_not_wellFormed hbad
    obtain ⟨segment, hsegment⟩ := Expectation.exists_firstBadSegment htext
    exact h _ _ (.segment hsplit hbefore hsegment)
  have hnonempty : count ≠ 0 := fun hzero => h _ _ (.noArguments hgiven hwell hzero)
  have hlength : texts.length = count := by
    by_contra hne
    exact h _ _ (.arity hgiven hwell hnonempty hne)
  exact ⟨hgiven, hwell, hlength⟩

end Objection

namespace Validator

variable {a : Arguments} {texts : List String} {kind : Exception.Kind} {message : String}

/-- An objection is the fault of every validator in either mode. -/
theorem validate_of_objection (h : Objection a.size texts kind message) :
    ∃ fault : Fault, fault.category = kind ∧ fault.message = message ∧
      ∀ (v : Validator) (mode : Mode), v.validate mode a texts = .error fault := by
  cases h with
  | missing none_given =>
    subst none_given
    exact ⟨.expectation .missing, rfl, rfl, fun v _ => v.validate_of_parse_error rfl⟩
  | segment split wellFormed bad =>
    subst split
    refine ⟨.expectation (.malformed _), rfl, rfl, fun v _ => v.validate_of_parse_error ?_⟩
    exact Expectation.parseList_of_firstBadSegment _ wellFormed bad
  | noArguments given wellFormed empty =>
    obtain ⟨es, hes⟩ := Expectation.exists_parseList_eq_ok given wellFormed
    refine ⟨.noArguments es, rfl, ?_, fun v _ => (v.validate_of_parse hes).trans (v.reportOn_of_size_eq_zero empty)⟩
    rw [Fault.message_noArguments, Expectation.map_raw_of_parseList hes]
  | arity given wellFormed nonempty length_ne =>
    obtain ⟨es, hes⟩ := Expectation.exists_parseList_eq_ok given wellFormed
    have hlength : es.length ≠ a.size := by
      rwa [← Expectation.map_raw_of_parseList hes, List.length_map] at length_ne
    refine ⟨.arity, rfl, rfl, fun v _ => (v.validate_of_parse hes).trans ?_⟩
    exact v.reportOn_of_ne (Nat.pos_of_ne_zero nonempty) hlength

/-- What the operations do before matching. -/
structure PhasesInOrder (v : Validator) (a : Arguments) (texts : List String) : Prop where
  /-- There is at most one objection, since each phase asks for the ones before it. -/
  unique : ∀ {kind kind' message message'}, Objection a.size texts kind message →
    Objection a.size texts kind' message' → kind = kind' ∧ message = message'
  /-- An objection is the exception of every operation, and no callback is called. -/
  rejected : ∀ kind message, Objection a.size texts kind message →
    ∃ e, e = Exception.documented v.config.docsUrl { kind, message } ∧ v.expect a texts = .error e ∧
      v.check a texts = .error e ∧ v.expectWith a texts = ⟨.error e, []⟩ ∧
      ∀ (m : Type → Type) [Monad m] (callback : Report → m Unit),
        v.expectWithM a texts callback = pure (.error e)
  /-- Without an objection there is a report, and the only exception left is that of a mismatch in strict mode. -/
  accepted : (∀ kind message, ¬Objection a.size texts kind message) →
    (∃ r, v.check a texts = .ok r ∧ v.expectWith a texts = ⟨.ok r.passed, [r]⟩ ∧
      ∀ (m : Type → Type) [Monad m] (callback : Report → m Unit),
        v.expectWithM a texts callback = (do callback r; pure (.ok r.passed))) ∧
    (v.expect a texts = .ok true ∨ ∃ e, v.expect a texts = .error e ∧ e.kind = .argumentType)

/-- **The phases before matching come in one order**, whatever the arguments hold. -/
theorem phases_in_order (v : Validator) (a : Arguments) (texts : List String) : v.PhasesInOrder a texts where
  unique h h' := by
    obtain ⟨fault, rfl, rfl, hfault⟩ := validate_of_objection h
    obtain ⟨fault', rfl, rfl, hfault'⟩ := validate_of_objection h'
    obtain rfl : fault = fault' := Except.error.inj ((hfault v .strict).symm.trans (hfault' v .strict))
    exact ⟨rfl, rfl⟩
  rejected kind message h := by
    obtain ⟨fault, rfl, rfl, hfault⟩ := validate_of_objection h
    have hcheck := v.check_of_error (hfault v .reporting)
    exact ⟨_, rfl, v.expect_of_error (hfault v .strict), hcheck, v.expectWith_of_error hcheck,
      fun _ _ callback => v.expectWithM_of_error callback hcheck⟩
  accepted h := by
    obtain ⟨r, hcheck⟩ := v.exists_check_iff_fits.2 (Objection.fits_of_forall_not h)
    refine ⟨⟨r, hcheck, v.expectWith_of_ok hcheck, fun _ _ callback => v.expectWithM_of_ok callback hcheck⟩, ?_⟩
    obtain ⟨hpassed, hfailed⟩ := expect_of_check hcheck
    cases hr : r.passed with
    | true => exact Or.inl (hpassed.2 hr)
    | false =>
      obtain ⟨_, _, e, _, _, hexpect, hkind, _⟩ := hfailed hr
      exact Or.inr ⟨e, hexpect, hkind⟩

end Validator

end CallContract
