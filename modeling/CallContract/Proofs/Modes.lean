import CallContract.Proofs.Phases

/-!
# Strict and reporting mode agree

The two modes are one validation seen twice (`expect_agrees_with_check`): before matching they fail alike
(`expect_check_cases`), and after it the strict result is read off the report, whose first entry has the message of
the exception (`expect_of_check`).
-/

namespace CallContract.Validator

variable (v : Validator)

/-- How the two modes can end: with one fault before matching, or with a report that settles the strict result. -/
theorem expect_check_cases (a : Arguments) (texts : List String) :
    (∃ fault : Fault, fault.category ≠ .argumentType ∧ v.expect a texts = .error (fault.raise v.config) ∧
        v.check a texts = .error (fault.raise v.config)) ∨
      ∃ r, v.check a texts = .ok r ∧
        ((r.entries = [] ∧ v.expect a texts = .ok true) ∨
          ∃ p f rest, ∃ fault : Fault, r.entries = (p, f) :: rest ∧ fault.category = .argumentType ∧
            fault.message = f.message ∧ v.expect a texts = .error (fault.raise v.config)) := by
  rcases v.validate_cases a texts with ⟨fault, hkind, hfault⟩ | ⟨c, hc⟩
  · exact Or.inl ⟨fault, hkind, v.expect_of_error (hfault .strict), v.check_of_error (hfault .reporting)⟩
  · obtain ⟨r, hr, hagree⟩ := c.report_agree v.config.indexing
    refine Or.inr ⟨r, v.check_of_ok ((hc .reporting).trans hr), ?_⟩
    rcases hagree with ⟨hnil, hs⟩ | ⟨i, rest, hcons, hs⟩
    · exact Or.inl ⟨hnil, v.expect_of_ok ((hc .strict).trans hs)⟩
    · exact Or.inr ⟨_, _, rest, c.faultAt i, hcons, rfl, rfl, v.expect_of_error ((hc .strict).trans hs)⟩

variable {v} {a : Arguments} {texts : List String}

/-- Strict validation never answers that something is wrong without saying what. -/
theorem expect_ne_ok_false : v.expect a texts ≠ .ok false := by
  rcases v.expect_check_cases a texts with
    ⟨fault, _, hexpect, _⟩ | ⟨r, _, ⟨_, hexpect⟩ | ⟨_, _, _, fault, _, _, _, hexpect⟩⟩
  all_goals
    rw [hexpect]
    exact nofun

/-- Reporting mode raises no mismatch. -/
theorem kind_ne_of_check_eq_error {e : Exception} (h : v.check a texts = .error e) : e.kind ≠ .argumentType := by
  rcases v.expect_check_cases a texts with ⟨fault, hkind, _, hcheck⟩ | ⟨r, hcheck, _⟩
  · rw [hcheck] at h
    rw [← Except.error.inj h, Fault.kind_raise]
    exact hkind
  · rw [hcheck] at h
    exact nomatch h

theorem expect_of_check_eq_error {e : Exception} (h : v.check a texts = .error e) : v.expect a texts = .error e := by
  rcases v.expect_check_cases a texts with ⟨fault, _, hexpect, hcheck⟩ | ⟨r, hcheck, _⟩
  · rw [hcheck] at h
    rw [hexpect, Except.error.inj h]
  · rw [hcheck] at h
    exact nomatch h

/-- A report settles the strict result. -/
theorem expect_of_check {r : Report} (h : v.check a texts = .ok r) :
    (v.expect a texts = .ok true ↔ r.passed = true) ∧
      (r.passed = false → ∃ p f e, r.failure? p = some f ∧ (∀ q < p, r.failure? q = none) ∧
        v.expect a texts = .error e ∧ e.kind = .argumentType ∧ e.message = f.message) := by
  rcases v.expect_check_cases a texts with ⟨fault, _, _, hcheck⟩ | ⟨s, hcheck, hs⟩
  · rw [hcheck] at h
    exact nomatch h
  · obtain rfl : s = r := Except.ok.inj (hcheck.symm.trans h)
    rcases hs with ⟨hnil, hexpect⟩ | ⟨p, f, rest, fault, hcons, hkind, hmessage, hexpect⟩
    · have hpassed : s.passed = true := s.passed_iff.2 hnil
      exact ⟨⟨fun _ => hpassed, fun _ => hexpect⟩, fun hfailed => nomatch hpassed.symm.trans hfailed⟩
    · have hfailed : s.passed ≠ true := by
        rw [ne_eq, s.passed_iff, hcons]
        exact List.cons_ne_nil _ _
      obtain ⟨hp, hleast⟩ := s.failure?_of_entries_cons hcons
      refine ⟨⟨fun htrue => ?_, fun hpassed => absurd hpassed hfailed⟩,
        fun _ => ⟨p, f, _, hp, hleast, hexpect, ?_, ?_⟩⟩
      · rw [hexpect] at htrue
        exact nomatch htrue
      · rw [Fault.kind_raise, hkind]
      · rw [Fault.message_raise, hmessage]

/-- A mismatch that strict validation raises is the first entry of the report. -/
theorem exists_of_expect_eq_error {e : Exception} (h : v.expect a texts = .error e) (hkind : e.kind = .argumentType) :
    ∃ r p f, v.check a texts = .ok r ∧ r.failure? p = some f ∧ (∀ q < p, r.failure? q = none) ∧
      e.message = f.message := by
  cases hcheck : v.check a texts with
  | error e' =>
    obtain rfl : e' = e := Except.error.inj ((expect_of_check_eq_error hcheck).symm.trans h)
    exact absurd hkind (kind_ne_of_check_eq_error hcheck)
  | ok r =>
    obtain ⟨hpassed, hfailed⟩ := expect_of_check hcheck
    have hr : r.passed = false := by
      rw [Bool.eq_false_iff]
      intro hr
      exact nomatch (hpassed.2 hr).symm.trans h
    obtain ⟨p, f, e', hf, hleast, hexpect, -, hmessage⟩ := hfailed hr
    obtain rfl : e' = e := Except.error.inj (hexpect.symm.trans h)
    exact ⟨r, p, f, rfl, hf, hleast, hmessage⟩

/-- **Strict and reporting mode agree.** Either all operations fail with one exception, and no callback is called; or
there is a report, which the callback is given once, and strict validation passes exactly when it has no failures and
else raises the message of the failure at the least position. -/
theorem expect_agrees_with_check (v : Validator) (a : Arguments) (texts : List String) :
    ((∃ e, v.expect a texts = .error e ∧ v.check a texts = .error e ∧ v.expectWith a texts = ⟨.error e, []⟩ ∧
        ∀ (m : Type → Type) [Monad m] (callback : Report → m Unit),
          v.expectWithM a texts callback = pure (.error e)) ∨
      ∃ r, v.check a texts = .ok r ∧ v.expectWith a texts = ⟨.ok r.passed, [r]⟩ ∧
        (∀ (m : Type → Type) [Monad m] (callback : Report → m Unit),
          v.expectWithM a texts callback = (do callback r; pure (.ok r.passed))) ∧
        (v.expect a texts = .ok true ↔ r.passed = true) ∧ (r.passed = true ↔ ∀ p, r.failure? p = none) ∧
        (r.passed = false → ∃ p f e, r.failure? p = some f ∧ (∀ q < p, r.failure? q = none) ∧
          v.expect a texts = .error e ∧ e.kind = .argumentType ∧ e.message = f.message)) ∧
      v.expect a texts ≠ .ok false ∧ ∀ e, v.check a texts = .error e → e.kind ≠ .argumentType := by
  refine ⟨?_, expect_ne_ok_false, fun e => kind_ne_of_check_eq_error⟩
  cases h : v.check a texts with
  | error e =>
    exact Or.inl ⟨e, expect_of_check_eq_error h, rfl, v.expectWith_of_error h,
      fun _ _ callback => v.expectWithM_of_error callback h⟩
  | ok r =>
    obtain ⟨hpassed, hfailed⟩ := expect_of_check h
    exact Or.inr ⟨r, rfl, v.expectWith_of_ok h, fun _ _ callback => v.expectWithM_of_ok callback h, hpassed,
      r.passed_iff_failure?, hfailed⟩

end CallContract.Validator
