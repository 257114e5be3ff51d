import CallContract.Proofs.Matching

/-!
# The iterations of matching

`Call.Iterates` says where matching stands after a number of iterations. An iteration moves on by one, or records the
mismatch that it looks at and moves behind the reported argument (`Call.step_cases`). So the index never stands still,
nothing is recorded twice (`Call.advances_of_step`), and there are no more iterations than arguments
(`Call.Iterates.onTrack`). Matching ends right behind the arguments, or one further where legacy indexing has recorded
the last one, or in strict mode on a mismatch (`Call.ends_report`).
-/

namespace CallContract.Call

variable {mode : Mode} {indexing : Indexing} {c : Call}

/-! ## One step -/

section Step

variable {cursor next : Cursor} {h : cursor.index < c.values.size}

/-- A step passes over a match, or records a mismatch. -/
theorem step_cases (hs : c.step mode indexing cursor h = .ok next) :
    (c.mismatches cursor.index = false ∧ next = { cursor with index := cursor.index + 1 }) ∨
      (mode = .reporting ∧ c.mismatches cursor.index = true ∧ next = {
        index := reportedIndex indexing cursor.index + 1
        report := cursor.report.record (cursor.index + 1) (c.entryAt indexing cursor.index).2 }) := by
  cases hm : c.mismatches cursor.index with
  | false =>
    rw [step_of_match hm] at hs
    exact Or.inl ⟨rfl, (Except.ok.inj hs).symm⟩
  | true =>
    cases mode with
    | strict =>
      rw [step_strict_of_mismatch hm] at hs
      exact nomatch hs
    | reporting =>
      rw [step_reporting_of_mismatch hm] at hs
      exact Or.inr ⟨rfl, rfl, (Except.ok.inj hs).symm⟩

/-- Only a mismatch in strict mode ends the matching at a step. -/
theorem step_error_cases {fault : Fault} (hs : c.step mode indexing cursor h = .error fault) :
    mode = .strict ∧ c.mismatches cursor.index = true ∧ fault = c.faultAt cursor.index := by
  cases hm : c.mismatches cursor.index with
  | false =>
    rw [step_of_match hm] at hs
    exact nomatch hs
  | true =>
    cases mode with
    | strict =>
      rw [step_strict_of_mismatch hm] at hs
      exact ⟨rfl, rfl, (Except.error.inj hs).symm⟩
    | reporting =>
      rw [step_reporting_of_mismatch hm] at hs
      exact nomatch hs

end Step

/-! ## All iterations -/

variable (mode indexing c) in
/-- Matching stands at a cursor after a number of iterations. -/
inductive Iterates : Nat → Cursor → Prop where
  | start : Iterates 0 ⟨0, .empty⟩
  | next {k : Nat} {cursor next : Cursor} {h : cursor.index < c.values.size} (reached : Iterates k cursor)
      (moves : c.step mode indexing cursor h = .ok next) : Iterates (k + 1) next

variable (mode indexing c) in
/-- Legacy indexing has recorded the last argument and moved on by two. -/
structure Overshoots (cursor : Cursor) : Prop where
  reporting : mode = .reporting
  legacy : indexing = .legacy
  index : cursor.index = c.values.size + 1
  recorded : ∃ f, cursor.report.failure? c.values.size = some f

variable (mode indexing c) in
/-- Where matching can stand: behind all recorded positions, after at most one iteration for each index it has left
behind, and not further than `Overshoots` says. -/
structure OnTrack (k : Nat) (cursor : Cursor) : Prop where
  iterations_le_index : k ≤ cursor.index
  iterations_le_size : k ≤ c.values.size
  recorded_le : ∀ p f, cursor.report.failure? p = some f → p ≤ cursor.index
  bounded : cursor.index ≤ c.values.size ∨ c.Overshoots mode indexing cursor

variable (mode indexing c) in
theorem onTrack_start : c.OnTrack mode indexing 0 ⟨0, .empty⟩ :=
  ⟨Nat.le_refl 0, Nat.zero_le _, nofun, Or.inl (Nat.zero_le _)⟩

/-- The position that a step records is a new one. -/
theorem OnTrack.failure?_eq_none {k : Nat} {cursor : Cursor} (hc : c.OnTrack mode indexing k cursor) :
    cursor.report.failure? (cursor.index + 1) = none := by
  rw [Option.eq_none_iff_forall_ne_some]
  intro f hf
  exact Nat.not_succ_le_self cursor.index (hc.recorded_le _ f hf)

theorem OnTrack.step {k : Nat} {cursor next : Cursor} {h : cursor.index < c.values.size}
    (hc : c.OnTrack mode indexing k cursor) (hs : c.step mode indexing cursor h = .ok next) :
    c.OnTrack mode indexing (k + 1) next := by
  have hindex := step_index_lt mode indexing c hs
  have hk := hc.iterations_le_index
  refine ⟨by omega, by omega, ?_, ?_⟩
  · intro p f hf
    rcases step_cases hs with ⟨-, rfl⟩ | ⟨-, -, rfl⟩
    · exact Nat.le_succ_of_le (hc.recorded_le p f hf)
    · rw [Report.failure?_record] at hf
      split at hf
      case isTrue hp =>
        rw [hp]
        exact hindex
      case isFalse hp =>
        exact Nat.le_of_lt (Nat.lt_of_le_of_lt (hc.recorded_le p f hf) hindex)
  · rcases step_cases hs with ⟨-, rfl⟩ | ⟨hmode, -, rfl⟩
    · exact Or.inl h
    · cases indexing with
      | consistent => exact Or.inl h
      | legacy =>
        rcases Nat.lt_or_eq_of_le h with hlt | heq
        · exact Or.inl hlt
        · -- the recorded position is the last one, and the cursor moves past the end
          refine Or.inr ⟨hmode, rfl, congrArg (· + 1) heq, (c.entryAt .legacy cursor.index).2, ?_⟩
          rw [← heq, Report.failure?_record, if_pos rfl]

/-- **Every cursor that matching comes to is on track.** -/
theorem Iterates.onTrack {k : Nat} {cursor : Cursor} (hc : c.Iterates mode indexing k cursor) :
    c.OnTrack mode indexing k cursor := by
  induction hc with
  | start => exact onTrack_start mode indexing c
  | next _ moves ih => exact ih.step moves

/-! ## What an iteration changes -/

/-- One iteration goes from a cursor to the next: the index grows, and the report stays or gets one entry behind all it
had, under a position that had none. -/
structure Advances (cursor next : Cursor) : Prop where
  index_lt : cursor.index < next.index
  report : next.report = cursor.report ∨ ∃ f, next.report = cursor.report.record (cursor.index + 1) f ∧
    cursor.report.failure? (cursor.index + 1) = none ∧
    next.report.entries = cursor.report.entries ++ [(cursor.index + 1, f)]

theorem advances_of_step {k : Nat} {cursor next : Cursor} {h : cursor.index < c.values.size}
    (hc : c.Iterates mode indexing k cursor) (hs : c.step mode indexing cursor h = .ok next) :
    Advances cursor next where
  index_lt := step_index_lt mode indexing c hs
  report := by
    rcases step_cases hs with ⟨-, rfl⟩ | ⟨-, -, rfl⟩
    · exact Or.inl rfl
    · refine Or.inr ⟨_, rfl, hc.onTrack.failure?_eq_none, Report.entries_record _ _ fun entry hentry => ?_⟩
      have hle := hc.onTrack.recorded_le entry.1 entry.2 ((Report.failure?_eq_some_iff _).2 hentry)
      exact Nat.lt_succ_of_le hle

/-! ## The end -/

variable (mode indexing c) in
/-- How matching ends, with its result. -/
inductive Ends : Except Fault Report → Prop where
  /-- It has left the arguments behind, and the result is what it has recorded. -/
  | behind {k : Nat} {last : Cursor} (reached : c.Iterates mode indexing k last)
      (index : last.index = c.values.size ∨ c.Overshoots mode indexing last) : Ends (.ok last.report)
  /-- It looks at a mismatch in strict mode, and the result is the fault of this mismatch. -/
  | stopped {k : Nat} {last : Cursor} (reached : c.Iterates mode indexing k last) (before : k < c.values.size)
      (strict : mode = .strict) (mismatch : c.mismatches last.index = true) : Ends (.error (c.faultAt last.index))

variable (mode indexing c) in
theorem ends_report : c.Ends mode indexing (c.report mode indexing) := by
  have hstep : ∀ {cursor next : Cursor} {h : cursor.index < c.values.size}, (∃ k, c.Iterates mode indexing k cursor) →
      c.step mode indexing cursor h = .ok next → ∃ k, c.Iterates mode indexing k next :=
    fun ⟨k, hk⟩ hs => ⟨k + 1, hk.next hs⟩
  rcases run_ends hstep ⟨0, .empty⟩ ⟨0, .start⟩ with
    ⟨last, ⟨k, hk⟩, hsize, hrun⟩ | ⟨last, fault, h, ⟨k, hk⟩, hs, hrun⟩
  · rw [report, hrun]
    refine .behind hk ?_
    rcases hk.onTrack.bounded with hle | hover
    · exact Or.inl (Nat.le_antisymm hle hsize)
    · exact Or.inr hover
  · obtain ⟨hstrict, hm, rfl⟩ := step_error_cases hs
    rw [report, hrun]
    exact .stopped hk (Nat.lt_of_le_of_lt hk.onTrack.iterations_le_index h) hstrict hm

end CallContract.Call
