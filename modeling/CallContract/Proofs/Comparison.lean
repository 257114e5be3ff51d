import CallContract.Proofs.Matching

/-!
# Two runs side by side

Statements about two calls compare what becomes of them: `SameOutcome` relates two results, `Report.AgreeOn` two
reports up to a view of their failures. What a call records depends on its mismatches alone (`Call.records_congr`), so
that two calls with the same mismatches have the same strict result as far as their faults agree
(`Call.report_strict_congr`), and reports at the same positions (`Call.agreeOn_of_entries`).
-/

namespace CallContract

/-- Two results that are both errors, in one relation, or both values, in the other. -/
inductive SameOutcome {ε α : Type} (E : ε → ε → Prop) (R : α → α → Prop) : Except ε α → Except ε α → Prop
  | error {e e' : ε} (h : E e e') : SameOutcome E R (.error e) (.error e')
  | ok {x y : α} (h : R x y) : SameOutcome E R (.ok x) (.ok y)

namespace SameOutcome

variable {ε ε' α β : Type} {E : ε → ε → Prop} {E' : ε' → ε' → Prop} {R : α → α → Prop} {x y : Except ε α}

theorem refl (hE : ∀ e, E e e) (hR : ∀ a, R a a) (x : Except ε α) : SameOutcome E R x x := by
  cases x with
  | error e => exact .error (hE e)
  | ok a => exact .ok (hR a)

theorem mapError (h : SameOutcome E R x y) {g : ε → ε'} (hg : ∀ e e', E e e' → E' (g e) (g e')) :
    SameOutcome E' R (x.mapError g) (y.mapError g) := by
  cases h with
  | error h => exact .error (hg _ _ h)
  | ok h => exact .ok h

theorem map (h : SameOutcome E R x y) {S : β → β → Prop} {g : α → β} (hg : ∀ a b, R a b → S (g a) (g b)) :
    SameOutcome E S (x.map g) (y.map g) := by
  cases h with
  | error h => exact .error h
  | ok h => exact .ok (hg _ _ h)

theorem eq (h : SameOutcome (· = ·) (· = ·) x y) : x = y := by
  cases h with
  | error h => rw [h]
  | ok h => rw [h]

end SameOutcome

/-- The same positions, with failures that look the same in a view. -/
structure Report.AgreeOn {α : Type} (view : Failure → α) (r s : Report) : Prop where
  passed : r.passed = s.passed
  positions : r.positions = s.positions
  failures : ∀ p, (r.failure? p).map view = (s.failure? p).map view

theorem Report.AgreeOn.refl {α : Type} (view : Failure → α) (r : Report) : r.AgreeOn view r :=
  ⟨rfl, rfl, fun _ => rfl⟩

namespace Call

variable {indexing indexing' : Indexing} {c d : Call}

/-! ## Strict matching -/

/-- Strict matching looks at the first mismatch only, and not at the indexing. -/
theorem report_strict_related {E : Fault → Fault → Prop} (hm : ∀ i, c.mismatches i = d.mismatches i)
    (hfault : ∀ i, c.mismatches i = true → E (c.faultAt i) (d.faultAt i)) :
    SameOutcome E (· = ·) (c.report .strict indexing) (d.report .strict indexing') := by
  rcases c.report_strict indexing with ⟨hs, hall⟩ | ⟨i, hs, hi, hfirst⟩ <;>
    rcases d.report_strict indexing' with ⟨hs', hall'⟩ | ⟨j, hs', hj, hfirst'⟩
  · rw [hs, hs']
    exact .ok rfl
  · exact nomatch (hall j).symm.trans ((hm j).trans hj)
  · exact nomatch (hall' i).symm.trans ((hm i).symm.trans hi)
  · obtain rfl : i = j := by
      refine eq_of_first hi hfirst ((hm j).trans hj) fun k hk => ?_
      exact (hm k).trans (hfirst' k hk)
    rw [hs, hs']
    exact .error (hfault i hi)

theorem report_strict_congr (hm : ∀ i, c.mismatches i = d.mismatches i)
    (hfault : ∀ i, c.mismatches i = true → c.faultAt i = d.faultAt i) :
    c.report .strict indexing = d.report .strict indexing' :=
  (report_strict_related hm hfault).eq

/-! ## Reports -/

theorem passesOver_congr (hm : ∀ i, c.mismatches i = d.mismatches i) (i : Nat) :
    c.passesOver indexing i = d.passesOver indexing i := by
  induction i with
  | zero => rfl
  | succ i ih => rw [passesOver, passesOver, hm, ih]

/-- Which indices are recorded depends on the mismatches alone. -/
theorem records_congr (hm : ∀ i, c.mismatches i = d.mismatches i) (i : Nat) :
    c.records indexing i = d.records indexing i := by
  rw [records, records, hm, passesOver_congr hm]

section Recorded

variable {r s : Report} (hr : r.entries = c.entriesBelow indexing c.values.size)
  (hs : s.entries = d.entriesBelow indexing d.values.size)
include hr hs

/-- What one call records is recorded by another one with at least its recorded indices. -/
theorem exists_failure?_of_records (hrecords : ∀ i, d.records indexing i = true → c.records indexing i = true)
    {p : Nat} {f : Failure} (hf : s.failure? p = some f) :
    ∃ i, d.records indexing i = true ∧ (d.entryAt indexing i).2 = f ∧
      r.failure? p = some (c.entryAt indexing i).2 := by
  obtain ⟨i, rfl, hi, hentry⟩ := (failure?_eq_some_iff hs).1 hf
  exact ⟨i, hi, hentry, (failure?_eq_some_iff hr).2 ⟨i, rfl, hrecords i hi, rfl⟩⟩

/-- Calls that mismatch at the same indices have reports that agree where their entries do. -/
theorem agreeOn_of_entries {α : Type} {view : Failure → α} (hsize : c.values.size = d.values.size)
    (hm : ∀ i, c.mismatches i = d.mismatches i)
    (hview : ∀ i, c.mismatches i = true → view (c.entryAt indexing i).2 = view (d.entryAt indexing i).2) :
    r.AgreeOn view s := by
  have hrecords : ∀ i, c.records indexing i = d.records indexing i := records_congr hm
  have hpositions : r.positions = s.positions := by
    rw [positions_eq hr, positions_eq hs, hsize]
    exact congrArg _ (List.filter_congr fun i _ => hrecords i)
  refine ⟨?_, hpositions, fun p => ?_⟩
  · rw [Bool.eq_iff_iff, r.passed_iff_positions, s.passed_iff_positions, hpositions]
  · cases hf : s.failure? p with
    | some f =>
      obtain ⟨i, hi, rfl, hg⟩ := exists_failure?_of_records hr hs (fun i hi => (hrecords i).trans hi) hf
      rw [hg, Option.map_some, Option.map_some, hview i (mismatches_of_records ((hrecords i).trans hi))]
    | none =>
      rw [Option.map_none, Option.map_eq_none_iff, Option.eq_none_iff_forall_ne_some]
      intro g hg
      have hp : p ∈ s.positions := hpositions ▸ r.mem_positions_iff.2 ⟨g, hg⟩
      obtain ⟨f, hf'⟩ := s.mem_positions_iff.1 hp
      exact nomatch hf.symm.trans hf'

end Recorded

end Call

end CallContract
