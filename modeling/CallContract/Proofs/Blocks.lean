import CallContract.Proofs.Comparison
import CallContract.Proofs.Indexing

/-!
# The two indexings side by side

Under consistent indexing every mismatch has an entry, under legacy indexing every second one of a block of consecutive
mismatches (`Call.records_legacy_of_block`): the first of a block has an entry, the one behind an entry has none. So
legacy indexing loses at most half of the entries (`Call.countP_mismatches_le`), and none of those it keeps differs but
in the argument it shows (`indexings_agree`).
-/

namespace CallContract

namespace Call

variable {c : Call}

/-! ## Counting indices -/

/-- How many indices below a bound have a property. -/
def countBelow (p : Nat → Bool) (bound : Nat) : Nat :=
  (List.range bound).countP p

theorem countBelow_succ (p : Nat → Bool) (bound : Nat) :
    countBelow p (bound + 1) = countBelow p bound + (p bound).toNat := by
  rw [countBelow, List.range_succ, List.countP_append, List.countP_singleton]
  cases p bound <;> rfl

theorem countBelow_congr {p q : Nat → Bool} {bound : Nat} (h : ∀ i < bound, p i = q i) :
    countBelow p bound = countBelow q bound := by
  refine List.countP_congr fun i hi => ?_
  rw [h i (List.mem_range.1 hi)]

theorem countBelow_even (bound : Nat) : countBelow (fun i => decide (i % 2 = 0)) bound = (bound + 1) / 2 := by
  induction bound with
  | zero => rfl
  | succ i ih =>
    rw [countBelow_succ, ih]
    by_cases hi : i % 2 = 0
    · simp only [hi, decide_true, Bool.toNat_true]
      omega
    · simp only [hi, decide_false, Bool.toNat_false]
      omega

/-! ## Blocks of mismatches -/

/-- Of a block of mismatches legacy indexing records the first and every second one after it. -/
theorem records_legacy_of_block {start k : Nat} (hblock : ∀ i < k, c.mismatches (start + i) = true)
    (hbefore : ∀ j, start = j + 1 → c.mismatches j = false) :
    ∀ i < k, c.records .legacy (start + i) = decide (i % 2 = 0) := by
  intro i hi
  induction i with
  | zero =>
    have hm := hblock 0 hi
    cases start with
    | zero => exact records_of_first hm nofun
    | succ j =>
      have hj : c.records .legacy j = false := by rw [records, hbefore j rfl, Bool.false_and]
      rw [Nat.add_zero] at hm ⊢
      rw [records_legacy_succ, hm, hj]
      rfl
  | succ i ih =>
    have hm : c.mismatches (start + i + 1) = true := hblock (i + 1) hi
    have hrecords : c.records .legacy (start + i + 1) = !decide (i % 2 = 0) := by
      rw [records_legacy_succ, hm, ih (Nat.lt_of_succ_lt hi), Bool.true_and]
    rw [← Nat.add_assoc, hrecords, ← decide_not]
    exact decide_eq_decide.2 (by omega)

/-- Every mismatch without an entry stands behind one with an entry. A mismatch at the bound, if the entry in front of
it passes it over, is counted beforehand. -/
theorem countBelow_mismatches_le (c : Call) (bound : Nat) :
    countBelow c.mismatches bound + (c.passesOver .legacy bound).toNat ≤ 2 * countBelow (c.records .legacy) bound := by
  induction bound with
  | zero => exact Nat.le_refl 0
  | succ i ih =>
    rw [countBelow_succ, countBelow_succ, passesOver_succ, records]
    cases c.mismatches i <;> cases hover : c.passesOver .legacy i <;> rw [hover] at ih <;> simp at ih ⊢ <;> omega

/-- No two indices side by side have entries. -/
theorem two_mul_countBelow_records_le (c : Call) (bound : Nat) :
    2 * countBelow (c.records .legacy) bound ≤ bound + (c.passesOver .legacy bound).toNat := by
  induction bound with
  | zero => exact Nat.le_refl 0
  | succ i ih =>
    rw [countBelow_succ, passesOver_succ, records]
    cases c.mismatches i <;> cases hover : c.passesOver .legacy i <;> rw [hover] at ih <;> simp at ih ⊢ <;> omega

/-- The number of entries of a report that holds the recorded ones. -/
theorem errorCount_eq {indexing : Indexing} {r : Report} (hr : r.entries = c.entriesBelow indexing c.values.size) :
    r.errorCount = countBelow (c.records indexing) c.values.size := by
  rw [r.errorCount_eq_length, positions_eq hr, List.length_map, ← List.countP_eq_length_filter]
  rfl

end Call

/-! ## Two reports on one call -/

/-- The least position with a failure. -/
def Report.IsLeast (r : Report) (p : Nat) : Prop :=
  (∃ f, r.failure? p = some f) ∧ ∀ q < p, r.failure? q = none

theorem Report.IsLeast.eq {r : Report} {p q : Nat} (hp : r.IsLeast p) (hq : r.IsLeast q) : p = q := by
  have hsome : ∀ p, r.IsLeast p → (r.failure? p).isSome = true ∧ ∀ q < p, (r.failure? q).isSome = false := by
    rintro p ⟨⟨f, hf⟩, hbefore⟩
    exact ⟨hf ▸ rfl, fun q hq => hbefore q hq ▸ rfl⟩
  exact Call.eq_of_first (p := fun p => (r.failure? p).isSome) (hsome p hp).1 (hsome p hp).2 (hsome q hq).1
    (hsome q hq).2

/-- A block of consecutive mismatches that cannot be made longer at either end. -/
structure Arguments.MismatchBlock (a : Arguments) (texts : List String) (start length : Nat) : Prop where
  mismatches : ∀ i < length, a.mismatches texts (start + i) = true
  before : a.mismatches texts (start - 1) = false
  behind : a.mismatches texts (start + length) = false

/-- What a legacy and a consistent report on the same arguments and texts have in common. -/
structure ReportsAgree (a : Arguments) (texts : List String) (legacy consistent : Report) : Prop where
  passed : legacy.passed = consistent.passed
  /-- What legacy indexing records consistent indexing records as well, with the same message and alternatives. -/
  entry : ∀ p f, legacy.failure? p = some f →
    ∃ g, consistent.failure? p = some g ∧ g.message = f.message ∧ g.expects = f.expects
  least : ∀ p, legacy.IsLeast p ↔ consistent.IsLeast p
  /-- Consistent indexing records every mismatch. -/
  mismatches : ∀ p, (∃ f, consistent.failure? p = some f) ↔ a.mismatches texts p = true
  /-- Of a block legacy indexing records the first mismatch and every second one after it. -/
  block : ∀ start length, a.MismatchBlock texts start length →
    (∀ i < length, (∃ f, legacy.failure? (start + i) = some f) ↔ i % 2 = 0) ∧
      (List.range length).countP (fun i => (legacy.failure? (start + i)).isSome) = (length + 1) / 2
  errorCount_le : consistent.errorCount ≤ 2 * legacy.errorCount
  errorCount_half : legacy.errorCount ≤ (a.size + 1) / 2

section Reports

variable {a : Arguments} {texts : List String} {es : List Expectation} {h : es.length = a.size} {l r : Report}
  (hparse : Expectation.parseList texts = .ok es)
  (hl : l.entries = (Call.ofLengthEq a es h).entriesBelow .legacy a.size)
  (hr : r.entries = (Call.ofLengthEq a es h).entriesBelow .consistent a.size)

include hl in
theorem isSome_failure?_legacy (i : Nat) :
    (l.failure? (i + 1)).isSome = (Call.ofLengthEq a es h).records .legacy i := by
  rw [Bool.eq_iff_iff, Option.isSome_iff_exists]
  exact Call.recorded_succ_iff hl

include hparse hl in
theorem legacy_of_block {start length : Nat} (hblock : a.MismatchBlock texts start length) :
    (∀ i < length, (∃ f, l.failure? (start + i) = some f) ↔ i % 2 = 0) ∧
      (List.range length).countP (fun i => (l.failure? (start + i)).isSome) = (length + 1) / 2 := by
  cases start with
  | zero =>
    -- no position is before the first one, so that only the empty block starts here
    cases length with
    | zero => exact ⟨nofun, rfl⟩
    | succ k => exact nomatch hblock.mismatches 0 k.succ_pos
  | succ j =>
    have hrecords : ∀ i < length, (Call.ofLengthEq a es h).records .legacy (j + i) = decide (i % 2 = 0) := by
      refine Call.records_legacy_of_block (fun i hi => ?_) fun j' hj => ?_
      · rw [Call.mismatches_ofLengthEq hparse h, ← hblock.mismatches i hi]
        congr 1
        omega
      · rw [Call.mismatches_ofLengthEq hparse h, ← hblock.before]
        congr 1
        omega
    have hsome : ∀ i < length, (l.failure? (j + 1 + i)).isSome = decide (i % 2 = 0) := by
      intro i hi
      rw [← hrecords i hi, ← isSome_failure?_legacy hl, Nat.add_right_comm]
    refine ⟨fun i hi => ?_, (Call.countBelow_congr hsome).trans (Call.countBelow_even length)⟩
    rw [← Option.isSome_iff_exists, hsome i hi, decide_eq_true_eq]

include hl hr in
/-- Both reports are empty, or both have their first entry on the first mismatch. -/
theorem exists_isLeast : (l.entries = [] ∧ r.entries = []) ∨ ∃ p, l.IsLeast p ∧ r.IsLeast p := by
  rcases (Call.ofLengthEq a es h).report_strict .legacy with ⟨_, hall⟩ | ⟨i, _, hm, hfirst⟩
  · exact Or.inl ⟨hl.trans (Call.entriesBelow_eq_nil fun i _ => hall i),
      hr.trans (Call.entriesBelow_eq_nil fun i _ => hall i)⟩
  · obtain ⟨_, hrest⟩ := Call.entriesBelow_of_first .legacy hm hfirst
    obtain ⟨_, hrest'⟩ := Call.entriesBelow_of_first .consistent hm hfirst
    obtain ⟨hf, hleast⟩ := l.failure?_of_entries_cons (hl.trans hrest)
    obtain ⟨hf', hleast'⟩ := r.failure?_of_entries_cons (hr.trans hrest')
    exact Or.inr ⟨_, ⟨⟨_, hf⟩, hleast⟩, ⟨⟨_, hf'⟩, hleast'⟩⟩

include hparse hl hr in
theorem reportsAgree_of_entries : ReportsAgree a texts l r where
  passed := by
    rw [Bool.eq_iff_iff]
    rcases exists_isLeast hl hr with ⟨hnil, hnil'⟩ | ⟨p, ⟨⟨f, hf⟩, _⟩, ⟨⟨g, hg⟩, _⟩⟩
    · rw [l.passed_iff, r.passed_iff, hnil, hnil']
    · rw [l.passed_iff_failure?, r.passed_iff_failure?]
      exact ⟨fun hall => (nomatch (hall p).symm.trans hf), fun hall => (nomatch (hall p).symm.trans hg)⟩
  entry := by
    intro p f hf
    obtain ⟨i, rfl, hrecords, rfl⟩ := (Call.failure?_eq_some_iff hl).1 hf
    have hconsistent : (Call.ofLengthEq a es h).records .consistent i = true := by
      rw [Call.records_consistent, Call.mismatches_of_records hrecords]
    exact ⟨_, (Call.failure?_eq_some_iff hr).2 ⟨i, rfl, hconsistent, rfl⟩, rfl, rfl⟩
  least := by
    intro p
    rcases exists_isLeast hl hr with ⟨hnil, hnil'⟩ | ⟨q, hq, hq'⟩
    · constructor
      · rintro ⟨⟨f, hf⟩, _⟩
        exact nomatch hnil ▸ l.failure?_eq_some_iff.1 hf
      · rintro ⟨⟨f, hf⟩, _⟩
        exact nomatch hnil' ▸ r.failure?_eq_some_iff.1 hf
    · exact ⟨fun hp => hp.eq hq ▸ hq', fun hp => hp.eq hq' ▸ hq⟩
  mismatches := by
    intro p
    cases p with
    | zero => exact ⟨fun hf => absurd hf (Call.recorded_zero hr), nofun⟩
    | succ i => rw [Call.recorded_succ_iff hr, Call.records_consistent, Call.mismatches_ofLengthEq hparse h]
  block := fun _ _ => legacy_of_block hparse hl
  errorCount_le := by
    have hconsistent : r.errorCount = Call.countBelow (Call.ofLengthEq a es h).mismatches a.size :=
      (Call.errorCount_eq hr).trans (Call.countBelow_congr fun i _ => Call.records_consistent i)
    have hle := (Call.ofLengthEq a es h).countBelow_mismatches_le a.size
    have hlegacy : l.errorCount = Call.countBelow ((Call.ofLengthEq a es h).records .legacy) a.size :=
      Call.errorCount_eq hl
    omega
  errorCount_half := by
    have hlegacy : l.errorCount = Call.countBelow ((Call.ofLengthEq a es h).records .legacy) a.size :=
      Call.errorCount_eq hl
    have hle := (Call.ofLengthEq a es h).two_mul_countBelow_records_le a.size
    have hbit := Bool.toNat_le ((Call.ofLengthEq a es h).passesOver .legacy a.size)
    omega

end Reports

/-- What the operations of two validators that differ in their indexing have in common. -/
structure IndexingsAgree (docsUrl : String) (a : Arguments) (texts : List String) : Prop where
  expect : ({ config := { docsUrl, indexing := .legacy } } : Validator).expect a texts =
    ({ config := { docsUrl, indexing := .consistent } } : Validator).expect a texts
  check :
    (∃ e, ({ config := { docsUrl, indexing := .legacy } } : Validator).check a texts = .error e ∧
        ({ config := { docsUrl, indexing := .consistent } } : Validator).check a texts = .error e) ∨
      ∃ l r, ({ config := { docsUrl, indexing := .legacy } } : Validator).check a texts = .ok l ∧
        ({ config := { docsUrl, indexing := .consistent } } : Validator).check a texts = .ok r ∧
        ReportsAgree a texts l r

/-- Strict matching does not look at the indexing. -/
theorem Call.report_strict_eq (c : Call) (indexing indexing' : Indexing) :
    c.report .strict indexing = c.report .strict indexing' :=
  report_strict_congr (fun _ => rfl) fun _ _ => rfl

/-- **Legacy against consistent indexing**: for any arguments, texts and documentation the two validators agree as
far as `IndexingsAgree` says. -/
theorem indexings_agree (docsUrl : String) (a : Arguments) (texts : List String) : IndexingsAgree docsUrl a texts := by
  rcases Validator.validate_phases a texts with ⟨fault, _, hfault⟩ | ⟨es, h, hparse, hmatch⟩
  · constructor
    · rw [Validator.expect, Validator.expect, hfault, hfault]
      rfl
    · exact Or.inl ⟨_, Validator.check_of_error _ (hfault _ _), Validator.check_of_error _ (hfault _ _)⟩
  · constructor
    · rw [Validator.expect, Validator.expect, hmatch, hmatch, Call.report_strict_eq _ _ .consistent]
      rfl
    · obtain ⟨l, hl, hlentries⟩ := (Call.ofLengthEq a es h).report_reporting .legacy
      obtain ⟨r, hr, hrentries⟩ := (Call.ofLengthEq a es h).report_reporting .consistent
      exact Or.inr ⟨l, r, Validator.check_of_ok _ ((hmatch _ _).trans hl),
        Validator.check_of_ok _ ((hmatch _ _).trans hr), reportsAgree_of_entries hparse hlentries hrentries⟩

end CallContract
