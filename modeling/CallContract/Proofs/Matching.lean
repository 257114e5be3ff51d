import CallContract.Matching
import CallContract.Proofs.Report

/-!
# What matching finds

A call `c` mismatches at an index (`Call.mismatches`) when the argument there is of a kind that is not expected. Which
mismatches get an entry is a recursion on the index alone (`Call.passesOver`, `Call.records`): under legacy indexing
the index behind a recorded one is passed over.

* **Strict** (`report_strict`): the fault of the first mismatch, or an empty report.
* **Reporting** (`report_reporting`): a report whose entries are those on the recorded indices, in order.

Both are what the loop keeps (`Matched`, `Reporting`), carried through a run by `run_ends`.
-/

namespace CallContract.Call

variable (indexing : Indexing) (c : Call)

/-! ## Mismatches -/

/-- What is expected at an index. -/
def expectationAt (index : Nat) : Expectation :=
  c.expectations.getD index default

/-- The kind of the argument at an index. -/
def kindAt (index : Nat) : Kind :=
  (c.values.getD index .undefined).kind

/-- The argument at an index is of a kind that is not expected there. -/
def mismatches (index : Nat) : Bool :=
  decide (index < c.values.size) && !(c.expectationAt index).accepts (c.kindAt index)

/-- The fault of a mismatch at an index. -/
def faultAt (index : Nat) : Fault :=
  .mismatch (index + 1) (c.expectationAt index) (c.kindAt index)

/-- The entry on a mismatch at an index. -/
def entryAt (index : Nat) : Nat × Failure :=
  (index + 1, c.failureAt indexing index (c.expectationAt index) (c.faultAt index).message)

/-- The index is passed over because an entry is recorded on the one before. -/
def passesOver : Nat → Bool
  | 0 => false
  | i + 1 => decide (indexing = .legacy) && (c.mismatches i && !passesOver i)

/-- An entry is recorded on the index. -/
def records (index : Nat) : Bool :=
  c.mismatches index && !c.passesOver indexing index

/-- The entries on the indices below a bound. -/
def entriesBelow (bound : Nat) : List (Nat × Failure) :=
  ((List.range bound).filter (c.records indexing)).map (c.entryAt indexing)

/-- There is only one first index with a property. -/
theorem eq_of_first {p : Nat → Bool} {i j : Nat} (hi : p i = true) (hbefore : ∀ k < i, p k = false) (hj : p j = true)
    (hbefore' : ∀ k < j, p k = false) : i = j := by
  rcases Nat.lt_trichotomy i j with hlt | heq | hgt
  · exact nomatch (hbefore' i hlt).symm.trans hi
  · exact heq
  · exact nomatch (hbefore j hgt).symm.trans hj

variable {indexing} {c}

theorem lt_size_of_mismatches {i : Nat} (h : c.mismatches i = true) : i < c.values.size :=
  of_decide_eq_true (Bool.and_eq_true_iff.1 h).1

theorem mismatches_of_records {i : Nat} (h : c.records indexing i = true) : c.mismatches i = true :=
  (Bool.and_eq_true_iff.1 h).1

theorem passesOver_succ (i : Nat) :
    c.passesOver indexing (i + 1) = (decide (indexing = .legacy) && c.records indexing i) := rfl

theorem passesOver_consistent (i : Nat) : c.passesOver .consistent i = false := by
  cases i <;> rfl

theorem records_consistent (i : Nat) : c.records .consistent i = c.mismatches i := by
  rw [records, passesOver_consistent, Bool.not_false, Bool.and_true]

theorem records_legacy_succ (i : Nat) :
    c.records .legacy (i + 1) = (c.mismatches (i + 1) && !c.records .legacy i) := rfl

theorem records_of_first {i : Nat} (h : c.mismatches i = true) (hfirst : ∀ j < i, c.mismatches j = false) :
    c.records indexing i = true := by
  cases i with
  | zero => rw [records, h]; rfl
  | succ i =>
    have hi : c.records indexing i = false := by rw [records, hfirst i i.lt_succ_self, Bool.false_and]
    rw [records, h, passesOver_succ, hi, Bool.and_false]
    rfl

/-! ## Entries below a bound -/

theorem entriesBelow_succ (i : Nat) : c.entriesBelow indexing (i + 1) =
    c.entriesBelow indexing i ++ if c.records indexing i then [c.entryAt indexing i] else [] := by
  rw [entriesBelow, List.range_succ, List.filter_append, List.map_append, entriesBelow]
  cases h : c.records indexing i <;> simp [h]

theorem entriesBelow_of_records {i : Nat} (h : c.records indexing i = true) :
    c.entriesBelow indexing (i + 1) = c.entriesBelow indexing i ++ [c.entryAt indexing i] := by
  rw [entriesBelow_succ, if_pos h]

theorem entriesBelow_of_not_records {i : Nat} (h : c.records indexing i = false) :
    c.entriesBelow indexing (i + 1) = c.entriesBelow indexing i := by
  rw [entriesBelow_succ, h, if_neg Bool.false_ne_true, List.append_nil]

theorem mem_entriesBelow_iff {bound : Nat} {entry : Nat × Failure} : entry ∈ c.entriesBelow indexing bound ↔
    ∃ i < bound, c.records indexing i = true ∧ c.entryAt indexing i = entry := by
  simp only [entriesBelow, List.mem_map, List.mem_filter, List.mem_range, and_assoc]

variable (indexing) in
/-- A larger bound only adds entries at the end. -/
theorem entriesBelow_prefix {i j : Nat} (h : i ≤ j) :
    ∃ rest, c.entriesBelow indexing j = c.entriesBelow indexing i ++ rest := by
  induction h with
  | refl => exact ⟨[], (List.append_nil _).symm⟩
  | step _ ih =>
    obtain ⟨rest, hrest⟩ := ih
    exact ⟨_, by rw [entriesBelow_succ, hrest, List.append_assoc]⟩

/-- Past the arguments there are no entries. -/
theorem entriesBelow_of_size_le {bound : Nat} (h : c.values.size ≤ bound) :
    c.entriesBelow indexing bound = c.entriesBelow indexing c.values.size := by
  induction h with
  | refl => rfl
  | @step bound hle ih =>
    have hout : c.records indexing bound = false := by
      rw [← Bool.not_eq_true]
      exact fun hr => Nat.not_lt_of_le hle (lt_size_of_mismatches (mismatches_of_records hr))
    rw [entriesBelow_of_not_records hout, ih]

theorem entriesBelow_eq_nil {bound : Nat} (h : ∀ i < bound, c.mismatches i = false) :
    c.entriesBelow indexing bound = [] := by
  rw [List.eq_nil_iff_forall_not_mem]
  intro entry hm
  obtain ⟨i, hi, hr, _⟩ := mem_entriesBelow_iff.1 hm
  exact Bool.false_ne_true ((h i hi).symm.trans (mismatches_of_records hr))

variable (indexing) in
/-- The entry in front is on the first mismatch. -/
theorem entriesBelow_of_first {i : Nat} (h : c.mismatches i = true) (hfirst : ∀ j < i, c.mismatches j = false) :
    ∃ rest, c.entriesBelow indexing c.values.size = c.entryAt indexing i :: rest := by
  obtain ⟨rest, hrest⟩ := entriesBelow_prefix indexing (lt_size_of_mismatches h)
  rw [entriesBelow_of_records (records_of_first h hfirst), entriesBelow_eq_nil hfirst] at hrest
  exact ⟨rest, hrest⟩

/-! ## One step -/

section Step

variable {mode : Mode} {cursor next : Cursor} {h : cursor.index < c.values.size}

/-- What a step looks at, inside the arguments. -/
theorem step_eq : c.step mode indexing cursor h =
    if (c.expectationAt cursor.index).accepts (c.kindAt cursor.index) then
      .ok { cursor with index := cursor.index + 1 }
    else match mode with
      | .strict => .error (c.faultAt cursor.index)
      | .reporting => .ok {
          index := reportedIndex indexing cursor.index + 1
          report := cursor.report.record (cursor.index + 1) (c.entryAt indexing cursor.index).2 } := by
  have hExpectation : cursor.index < c.expectations.size := by rw [c.size_eq]; exact h
  have he : c.expectationAt cursor.index = c.expectations[cursor.index] := by
    rw [expectationAt, Array.getD, dif_pos hExpectation]
    rfl
  have hk : c.kindAt cursor.index = c.values[cursor.index].kind := by
    rw [kindAt, Array.getD, dif_pos h]
    rfl
  simp only [entryAt, faultAt, he, hk]
  rfl

/-- A match moves on by one. -/
theorem step_of_match (hm : c.mismatches cursor.index = false) :
    c.step mode indexing cursor h = .ok { cursor with index := cursor.index + 1 } := by
  rw [mismatches, decide_eq_true h, Bool.true_and, Bool.not_eq_false'] at hm
  rw [step_eq, if_pos hm]

theorem not_accepts_of_mismatches {i : Nat} (hm : c.mismatches i = true) :
    ¬(c.expectationAt i).accepts (c.kindAt i) = true := by
  have h := (Bool.and_eq_true_iff.1 hm).2
  rwa [Bool.not_eq_true', ← Bool.not_eq_true] at h

/-- In strict mode a mismatch ends the matching. -/
theorem step_strict_of_mismatch (hm : c.mismatches cursor.index = true) :
    c.step .strict indexing cursor h = .error (c.faultAt cursor.index) := by
  rw [step_eq, if_neg (not_accepts_of_mismatches hm)]

/-- In reporting mode a mismatch is recorded, and the cursor moves behind the reported argument. -/
theorem step_reporting_of_mismatch (hm : c.mismatches cursor.index = true) :
    c.step .reporting indexing cursor h = .ok {
      index := reportedIndex indexing cursor.index + 1
      report := cursor.report.record (cursor.index + 1) (c.entryAt indexing cursor.index).2 } := by
  rw [step_eq, if_neg (not_accepts_of_mismatches hm)]

end Step

/-! ## Whole runs -/

section Run

variable {mode : Mode}

/-- A run ends behind the arguments or with the fault of a step, and what every step keeps holds where it ends. -/
theorem run_ends {Inv : Cursor → Prop}
    (hstep : ∀ {cursor next : Cursor} {h : cursor.index < c.values.size}, Inv cursor →
      c.step mode indexing cursor h = .ok next → Inv next) (cursor : Cursor) (hinv : Inv cursor) :
    (∃ last, Inv last ∧ c.values.size ≤ last.index ∧ c.run mode indexing cursor = .ok last.report) ∨
      ∃ last fault, ∃ h : last.index < c.values.size, Inv last ∧ c.step mode indexing last h = .error fault ∧
        c.run mode indexing cursor = .error fault := by
  fun_induction Call.run mode indexing c cursor with
  | case1 cursor h fault hs => exact Or.inr ⟨cursor, fault, h, hinv, hs, rfl⟩
  | case2 cursor h next hs ih => exact ih (hstep hinv hs)
  | case3 cursor h => exact Or.inl ⟨cursor, hinv, Nat.le_of_not_lt h, rfl⟩

variable (c) in
/-- Strict matching so far: everything before the cursor matches, nothing is recorded. -/
structure Matched (cursor : Cursor) : Prop where
  report : cursor.report = .empty
  matches_below : ∀ i < cursor.index, c.mismatches i = false

theorem Matched.step {cursor next : Cursor} {h : cursor.index < c.values.size} (hc : c.Matched cursor)
    (hs : c.step .strict indexing cursor h = .ok next) : c.Matched next := by
  cases hm : c.mismatches cursor.index with
  | true =>
    rw [step_strict_of_mismatch hm] at hs
    exact nomatch hs
  | false =>
    rw [step_of_match hm] at hs
    cases hs
    refine ⟨hc.report, fun i hi => ?_⟩
    rcases Nat.lt_succ_iff_lt_or_eq.1 hi with hi | rfl
    · exact hc.matches_below i hi
    · exact hm

variable (indexing c) in
/-- **Strict matching** passes when nothing mismatches, and else ends with the fault of the first mismatch. -/
theorem report_strict :
    (c.report .strict indexing = .ok .empty ∧ ∀ i, c.mismatches i = false) ∨
      ∃ i, c.report .strict indexing = .error (c.faultAt i) ∧ c.mismatches i = true ∧
        ∀ j < i, c.mismatches j = false := by
  rcases run_ends (Matched.step (c := c)) ⟨0, .empty⟩ ⟨rfl, nofun⟩ with
    ⟨last, hlast, hsize, hrun⟩ | ⟨last, fault, h, hlast, hs, hrun⟩
  · refine Or.inl ⟨by rw [report, hrun, hlast.report], fun i => ?_⟩
    rw [← Bool.not_eq_true]
    intro hm
    have hi := Nat.lt_of_lt_of_le (lt_size_of_mismatches hm) hsize
    exact Bool.false_ne_true ((hlast.matches_below i hi).symm.trans hm)
  · cases hm : c.mismatches last.index with
    | true =>
      rw [step_strict_of_mismatch hm] at hs
      refine Or.inr ⟨last.index, ?_, hm, hlast.matches_below⟩
      rw [report, hrun, ← Except.error.inj hs]
    | false =>
      rw [step_of_match hm] at hs
      exact nomatch hs

variable (indexing c) in
/-- Reporting so far: the report holds the entries on the indices before the cursor, and the cursor is on an index
that is looked at. -/
structure Reporting (cursor : Cursor) : Prop where
  entries : cursor.report.entries = c.entriesBelow indexing cursor.index
  looked_at : c.passesOver indexing cursor.index = false

/-- Recording the entry of an index that is looked at. -/
theorem Reporting.record {cursor : Cursor} (hc : c.Reporting indexing cursor)
    (hm : c.mismatches cursor.index = true) :
    (cursor.report.record (cursor.index + 1) (c.entryAt indexing cursor.index).2).entries =
      c.entriesBelow indexing (cursor.index + 1) := by
  have hr : c.records indexing cursor.index = true := by rw [records, hm, hc.looked_at]; rfl
  rw [Report.entries_record, hc.entries, entriesBelow_of_records hr]
  · rfl
  · intro entry he
    rw [hc.entries] at he
    obtain ⟨i, hi, _, rfl⟩ := mem_entriesBelow_iff.1 he
    exact Nat.succ_lt_succ hi

theorem Reporting.step {cursor next : Cursor} {h : cursor.index < c.values.size} (hc : c.Reporting indexing cursor)
    (hs : c.step .reporting indexing cursor h = .ok next) : c.Reporting indexing next := by
  cases hm : c.mismatches cursor.index with
  | false =>
    have hr : c.records indexing cursor.index = false := by rw [records, hm, Bool.false_and]
    rw [step_of_match hm] at hs
    cases hs
    refine ⟨hc.entries.trans (entriesBelow_of_not_records hr).symm, ?_⟩
    rw [passesOver_succ, hr, Bool.and_false]
  | true =>
    have hr : c.records indexing cursor.index = true := by rw [records, hm, hc.looked_at]; rfl
    rw [step_reporting_of_mismatch hm] at hs
    cases hs
    cases indexing with
    | consistent => exact ⟨hc.record hm, passesOver_consistent _⟩
    | legacy =>
      -- the index behind the recorded one has no entry, so the one after it is looked at again
      have hnext : c.records .legacy (cursor.index + 1) = false := by
        rw [records_legacy_succ, hr, Bool.not_true, Bool.and_false]
      refine ⟨(hc.record hm).trans (entriesBelow_of_not_records hnext).symm, ?_⟩
      rw [reportedIndex, passesOver_succ, hnext, Bool.and_false]

variable (indexing c) in
/-- **Reporting** always gives a report, with exactly the entries on the recorded indices. -/
theorem report_reporting :
    ∃ r, c.report .reporting indexing = .ok r ∧ r.entries = c.entriesBelow indexing c.values.size := by
  rcases run_ends (Reporting.step (c := c)) ⟨0, .empty⟩ ⟨rfl, rfl⟩ with
    ⟨last, hlast, hsize, hrun⟩ | ⟨last, fault, h, _, hs, _⟩
  · exact ⟨last.report, hrun, hlast.entries.trans (entriesBelow_of_size_le hsize)⟩
  · cases hm : c.mismatches last.index with
    | true =>
      rw [step_reporting_of_mismatch hm] at hs
      exact nomatch hs
    | false =>
      rw [step_of_match hm] at hs
      exact nomatch hs

variable (indexing c) in
/-- Strict matching ends with the message of the entry in front of the report, or there are no entries. -/
theorem report_agree : ∃ r, c.report .reporting indexing = .ok r ∧
    ((r.entries = [] ∧ c.report .strict indexing = .ok .empty) ∨
      ∃ i rest, r.entries = c.entryAt indexing i :: rest ∧ c.report .strict indexing = .error (c.faultAt i)) := by
  obtain ⟨r, hr, hentries⟩ := c.report_reporting indexing
  refine ⟨r, hr, ?_⟩
  rcases c.report_strict indexing with ⟨hs, hall⟩ | ⟨i, hs, hm, hfirst⟩
  · exact Or.inl ⟨hentries.trans (entriesBelow_eq_nil fun i _ => hall i), hs⟩
  · obtain ⟨rest, hrest⟩ := entriesBelow_of_first indexing hm hfirst
    exact Or.inr ⟨i, rest, hentries.trans hrest, hs⟩

/-- A report has passed when nothing mismatches. -/
theorem passed_iff_of_report {r : Report} (h : c.report .reporting indexing = .ok r) :
    r.passed = true ↔ ∀ i, c.mismatches i = false := by
  obtain ⟨s, hs, hentries⟩ := c.report_reporting indexing
  obtain rfl : s = r := Except.ok.inj (hs.symm.trans h)
  rw [s.passed_iff, hentries]
  constructor
  · intro hnil
    rcases c.report_strict indexing with ⟨-, hall⟩ | ⟨i, -, hm, hfirst⟩
    · exact hall
    · obtain ⟨rest, hrest⟩ := entriesBelow_of_first indexing hm hfirst
      simp [hrest] at hnil
  · intro hall
    exact entriesBelow_eq_nil fun i _ => hall i

end Run

/-! ## Reports with the recorded entries -/

section Recorded

variable {r : Report} (hr : r.entries = c.entriesBelow indexing c.values.size)
include hr

theorem failure?_eq_some_iff {p : Nat} {f : Failure} :
    r.failure? p = some f ↔ ∃ i, p = i + 1 ∧ c.records indexing i = true ∧ (c.entryAt indexing i).2 = f := by
  rw [r.failure?_eq_some_iff, hr, mem_entriesBelow_iff]
  constructor
  · rintro ⟨i, _, hrecords, hentry⟩
    exact ⟨i, (congrArg Prod.fst hentry).symm, hrecords, congrArg Prod.snd hentry⟩
  · rintro ⟨i, rfl, hrecords, rfl⟩
    exact ⟨i, lt_size_of_mismatches (mismatches_of_records hrecords), hrecords, rfl⟩

theorem recorded_zero : ¬∃ f, r.failure? 0 = some f := by
  rintro ⟨f, hf⟩
  obtain ⟨i, hi, _⟩ := (failure?_eq_some_iff hr).1 hf
  exact nomatch hi

theorem recorded_succ_iff {i : Nat} : (∃ f, r.failure? (i + 1) = some f) ↔ c.records indexing i = true := by
  constructor
  · rintro ⟨f, hf⟩
    obtain ⟨j, hj, hrecords, _⟩ := (failure?_eq_some_iff hr).1 hf
    exact Nat.succ.inj hj ▸ hrecords
  · intro hrecords
    exact ⟨_, (failure?_eq_some_iff hr).2 ⟨i, rfl, hrecords, rfl⟩⟩

theorem positions_eq :
    r.positions = ((List.range c.values.size).filter (c.records indexing)).map (· + 1) := by
  rw [Report.positions, hr, entriesBelow, List.map_map]
  rfl

end Recorded

end CallContract.Call
