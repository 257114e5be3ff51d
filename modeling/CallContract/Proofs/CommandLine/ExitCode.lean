import CallContract.Proofs.CommandLine.Stages
import CallContract.Proofs.Indexing
import CallContract.Proofs.Json.Pretty
import CallContract.Proofs.Modes

/-!
# The exit code of a check

A check loads its configuration, its expectations and its values (`Loads`), and matches the values if they fit the
expectations (`Fits`). `Verdict` says which exit code comes of that: it does not look at the options that
choose the output, the indexing and the documentation. Strict mode and reporting mode come to it on two ways, by the
category of an exception and by a report (`exit_strictOutcome`). `check_exits` says that the exit code is the verdict,
and what is written to both outputs with it.
-/

namespace CallContract.CommandLine

/-! ## Exit codes -/

section Exit

variable {files : Files} {o : CheckOptions} {fields : Config.Fields} {texts : List String} {a : Arguments}

/-- The exit code of a check: whether everything is there that can be matched, and whether it matches. -/
inductive Verdict (files : Files) (o : CheckOptions) : Nat → Prop where
  | accepted {fields : Config.Fields} {texts : List String} {a : Arguments} (loads : Loads files o fields texts a)
      (fits : Fits a.size texts) (accepts : ∀ p, a.mismatches texts p = false) : Verdict files o 0
  | mismatch {fields : Config.Fields} {texts : List String} {a : Arguments} {p : Nat}
      (loads : Loads files o fields texts a) (fits : Fits a.size texts)
      (mismatches : a.mismatches texts p = true) : Verdict files o 1
  | invalid (nothing : ∀ fields texts a, Loads files o fields texts a → ¬Fits a.size texts) : Verdict files o 2

theorem exists_verdict (files : Files) (o : CheckOptions) : ∃ code, Verdict files o code := by
  by_cases h : ∃ fields texts a, Loads files o fields texts a ∧ Fits a.size texts
  · obtain ⟨fields, texts, a, hloads, hfits⟩ := h
    by_cases hall : ∀ p, a.mismatches texts p = false
    · exact ⟨0, .accepted hloads hfits hall⟩
    · simp only [not_forall, Bool.not_eq_false] at hall
      obtain ⟨p, hp⟩ := hall
      exact ⟨1, .mismatch hloads hfits hp⟩
  · refine ⟨2, .invalid ?_⟩
    intro fields texts a hloads hfits
    exact h ⟨fields, texts, a, hloads, hfits⟩

/-- Both modes have the exit code of the report. -/
theorem exit_strictOutcome (v : Validator) (a : Arguments) (texts : List String) :
    (strictOutcome (v.expect a texts)).exit = (reportOutcome (v.check a texts)).exit := by
  rcases v.expect_check_cases a texts with
    ⟨fault, hkind, hexpect, hcheck⟩ | ⟨r, hcheck, ⟨hnil, hexpect⟩ | ⟨_, _, _, fault, hcons, hkind, -, hexpect⟩⟩
  · rw [hexpect, hcheck]
    simp [strictOutcome, reportOutcome, exceptionOutcome, hkind]
  · rw [hexpect, hcheck]
    simp [strictOutcome, reportOutcome, r.passed_iff.2 hnil]
  · have hfailed : r.passed = false := by
      rw [Bool.eq_false_iff, ne_eq, r.passed_iff, hcons]
      exact List.cons_ne_nil _ _
    rw [hexpect, hcheck]
    simp [strictOutcome, reportOutcome, exceptionOutcome, hkind, hfailed]

theorem exit_of_loads (loads : Loads files o fields texts a) : (check files o).exit =
    (reportOutcome (({ config := o.override fields.complete } : Validator).check a texts)).exit := by
  cases h : o.report with
  | true => rw [check_of_report loads.load_eq h]
  | false => rw [check_of_strict loads.load_eq h, exit_strictOutcome]

theorem Verdict.exit_eq {code : Nat} (h : Verdict files o code) : (check files o).exit = code := by
  cases h with
  | @accepted fields texts a loads fits accepts =>
    obtain ⟨r, hcheck⟩ := (Validator.exists_check_iff_fits { config := o.override fields.complete }).2 fits
    rw [exit_of_loads loads, hcheck]
    simp [reportOutcome, (Validator.passed_iff_of_check hcheck).2 accepts]
  | @mismatch fields texts a p loads fits mismatches =>
    obtain ⟨r, hcheck⟩ := (Validator.exists_check_iff_fits { config := o.override fields.complete }).2 fits
    have hfailed : ¬r.passed = true := by
      intro hpassed
      exact nomatch ((Validator.passed_iff_of_check hcheck).1 hpassed p).symm.trans mismatches
    rw [exit_of_loads loads, hcheck]
    simp [reportOutcome, hfailed]
  | invalid nothing =>
    rcases exists_loads files o with ⟨fields, texts, a, hloads⟩ | ⟨trouble, htrouble⟩
    · rw [exit_of_loads hloads]
      cases hcheck : ({ config := o.override fields.complete } : Validator).check a texts with
      | error e => rfl
      | ok r => exact absurd ((Validator.exists_check_iff_fits _).1 ⟨r, hcheck⟩) (nothing fields texts a hloads)
    · rw [check, withLoaded_of_load_error htrouble]
      rfl

theorem exit_eq_iff_verdict {code : Nat} : (check files o).exit = code ↔ Verdict files o code := by
  constructor
  · rintro rfl
    obtain ⟨code, h⟩ := exists_verdict files o
    rw [h.exit_eq]
    exact h
  · exact Verdict.exit_eq

/-- Loading does not look at the output, the indexing or the documentation that the options ask for. -/
theorem loads_options_iff (report legacyIndexing : Bool) (docsUrl : Option String) :
    Loads files { o with report, legacyIndexing, docsUrl } fields texts a ↔ Loads files o fields texts a :=
  ⟨fun h => ⟨⟨h.configured.default, h.configured.file⟩, ⟨h.expected.given, h.expected.file⟩, h.values⟩,
    fun h => ⟨⟨h.configured.default, h.configured.file⟩, ⟨h.expected.given, h.expected.file⟩, h.values⟩⟩

theorem Verdict.options {code : Nat} (h : Verdict files o code) (report legacyIndexing : Bool)
    (docsUrl : Option String) : Verdict files { o with report, legacyIndexing, docsUrl } code := by
  cases h with
  | accepted loads fits accepts => exact .accepted ((loads_options_iff _ _ _).2 loads) fits accepts
  | mismatch loads fits mismatches => exact .mismatch ((loads_options_iff _ _ _).2 loads) fits mismatches
  | invalid nothing =>
    refine .invalid ?_
    intro fields texts a hloads
    exact nothing fields texts a ((loads_options_iff _ _ _).1 hloads)

end Exit

/-! ## Outputs -/

/-- Nothing on the standard output, something on the error output. -/
def Outcome.OnlyComplains (outcome : Outcome) : Prop :=
  outcome.stdout = "" ∧ outcome.stderr ≠ ""

section Outcomes

variable {result : Except Exception Bool} {report : Except Exception Report}

theorem onlyComplains_outcome (trouble : Trouble) : trouble.outcome.OnlyComplains := by
  simp [Outcome.OnlyComplains, Trouble.outcome]

theorem onlyComplains_exceptionOutcome (code : Nat) (e : Exception) : (exceptionOutcome code e).OnlyComplains := by
  simp [Outcome.OnlyComplains, exceptionOutcome]

theorem onlyComplains_strictOutcome (h : (strictOutcome result).exit = 2) : (strictOutcome result).OnlyComplains := by
  cases result with
  | error e => exact onlyComplains_exceptionOutcome _ e
  | ok passed => simp [strictOutcome] at h

theorem onlyComplains_reportOutcome (h : (reportOutcome report).exit = 2) : (reportOutcome report).OnlyComplains := by
  cases report with
  | error e => exact onlyComplains_exceptionOutcome 2 e
  | ok r => cases hr : r.passed <;> simp [reportOutcome, hr] at h

theorem strictOutcome_of_exit_zero (h : (strictOutcome result).exit = 0) : strictOutcome result = ⟨0, "ok\n", ""⟩ := by
  cases result with
  | error e => by_cases hkind : e.kind = .argumentType <;> simp [strictOutcome, exceptionOutcome, hkind] at h
  | ok passed => rfl

theorem exists_of_strictOutcome_exit_one (h : (strictOutcome result).exit = 1) : ∃ e, result = .error e ∧
    e.kind = .argumentType ∧ strictOutcome result = ⟨1, "", e.text ++ "\n"⟩ := by
  cases result with
  | error e =>
    by_cases hkind : e.kind = .argumentType
    · exact ⟨e, rfl, hkind, by simp [strictOutcome, exceptionOutcome, hkind]⟩
    · simp [strictOutcome, exceptionOutcome, hkind] at h
  | ok passed => simp [strictOutcome] at h

theorem exists_of_reportOutcome (h : (reportOutcome report).exit ≠ 2) : ∃ r, report = .ok r ∧
    (reportOutcome report).stdout = r.toJson.pretty ++ "\n" ∧
    r.toJson.WrittenOverLines (reportOutcome report).stdout ∧ (reportOutcome report).stderr = "" ∧
    (r.passed = true ↔ (reportOutcome report).exit = 0) := by
  cases report with
  | error e => exact absurd rfl h
  | ok r =>
    refine ⟨r, rfl, rfl, r.toJson.writtenOverLines_pretty, rfl, ?_⟩
    cases hr : r.passed <;> simp [reportOutcome, hr]

end Outcomes

/-- The exit code of a check, and what is written to both outputs. -/
structure CheckExits (files : Files) (o : CheckOptions) : Prop where
  exit_iff : ∀ code, (check files o).exit = code ↔ Verdict files o code
  independent : ∀ report legacyIndexing docsUrl,
    (check files { o with report, legacyIndexing, docsUrl }).exit = (check files o).exit
  invalid : (check files o).exit = 2 → (check files o).OnlyComplains
  accepted : o.report = false → (check files o).exit = 0 → check files o = ⟨0, "ok\n", ""⟩
  /-- A mismatch is the exception of strict validation. -/
  mismatch : o.report = false → (check files o).exit = 1 → ∃ fields texts a e, Loads files o fields texts a ∧
    ({ config := o.override fields.complete } : Validator).expect a texts = .error e ∧ e.kind = .argumentType ∧
    check files o = ⟨1, "", e.text ++ "\n"⟩
  /-- A report is that of reporting mode, written as JSON over lines. -/
  reported : o.report = true → (check files o).exit ≠ 2 → ∃ fields texts a r, Loads files o fields texts a ∧
    ({ config := o.override fields.complete } : Validator).check a texts = .ok r ∧
    (check files o).stdout = r.toJson.pretty ++ "\n" ∧ r.toJson.WrittenOverLines (check files o).stdout ∧
    (check files o).stderr = "" ∧ (r.passed = true ↔ (check files o).exit = 0)

section Exits

variable {files : Files} {o : CheckOptions} {fields : Config.Fields} {texts : List String} {a : Arguments}

theorem onlyComplains_check (h : (check files o).exit = 2) : (check files o).OnlyComplains := by
  rcases exists_loads files o with ⟨fields, texts, a, hloads⟩ | ⟨trouble, htrouble⟩
  · cases hreport : o.report with
    | true =>
      rw [check_of_report hloads.load_eq hreport] at h ⊢
      exact onlyComplains_reportOutcome h
    | false =>
      rw [check_of_strict hloads.load_eq hreport] at h ⊢
      exact onlyComplains_strictOutcome h
  · rw [check, withLoaded_of_load_error htrouble]
    exact onlyComplains_outcome trouble

/-- Only what can be loaded has another exit code than 2. -/
theorem exists_loads_of_exit_ne (h : (check files o).exit ≠ 2) : ∃ fields texts a, Loads files o fields texts a := by
  rcases exists_loads files o with hloads | ⟨trouble, htrouble⟩
  · exact hloads
  · rw [check, withLoaded_of_load_error htrouble] at h
    exact absurd rfl h

/-- **The exit code of a check is settled by what it loads**: the options that choose the output, the indexing and the
documentation have no part in it. -/
theorem check_exits (files : Files) (o : CheckOptions) : CheckExits files o where
  exit_iff code := exit_eq_iff_verdict
  independent report legacyIndexing docsUrl := by
    obtain ⟨code, h⟩ := exists_verdict files o
    rw [h.exit_eq, (h.options report legacyIndexing docsUrl).exit_eq]
  invalid := onlyComplains_check
  accepted hplain h := by
    obtain ⟨fields, texts, a, hloads⟩ := exists_loads_of_exit_ne (h.trans_ne (by decide))
    rw [check_of_strict hloads.load_eq hplain] at h ⊢
    exact strictOutcome_of_exit_zero h
  mismatch hplain h := by
    obtain ⟨fields, texts, a, hloads⟩ := exists_loads_of_exit_ne (h.trans_ne (by decide))
    rw [check_of_strict hloads.load_eq hplain] at h ⊢
    obtain ⟨e, hexpect, hkind, houtcome⟩ := exists_of_strictOutcome_exit_one h
    exact ⟨fields, texts, a, e, hloads, hexpect, hkind, houtcome⟩
  reported hreport h := by
    obtain ⟨fields, texts, a, hloads⟩ := exists_loads_of_exit_ne h
    rw [check_of_report hloads.load_eq hreport] at h ⊢
    obtain ⟨r, hcheck, houtput⟩ := exists_of_reportOutcome h
    exact ⟨fields, texts, a, r, hloads, hcheck, houtput⟩

end Exits

end CallContract.CommandLine
