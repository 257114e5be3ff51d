import CallContract.Proofs.Report.Encodings
import Mathlib.Data.Finset.Card

/-!
# A report as a log under positions

A report holds for each position what the last call of `record` for it has put there, and nothing else
(`failure?_recordAll_eq_some_iff`). All questions follow from this: the positions are those of the calls, each once and
in increasing order, and the value that a callback is given has one entry for each of them (`keyed_log`). A report is
settled by its look-ups (`ext_failure?`), so that calls for different positions may change places (`record_comm`).
-/

namespace CallContract

/-! ## Values made of entries -/

/-- The value of an object made of entries under distinct keys is found where the entries have it. -/
theorem Value.get?_ofEntries {entries : List (String × Value)} (distinct : (entries.map (·.1)).Nodup) (key : String) :
    (ofEntries entries).get? key = Entries.find? entries key :=
  Entries.find?_ofList distinct key

/-- The value is an object with the four parts of the failure and no other. -/
structure Failure.ShownBy (f : Failure) (v : Value) : Prop where
  size : ∃ entries, v = .object entries ∧ entries.length = 4
  passedData : v.get? "passedData" = some f.passedData
  passedDataType : v.get? "passedDataType" = some (.string f.passedKind.name)
  expects : v.get? "expects" = some (.array (f.expects.map fun tag => .string tag.spelling))
  message : v.get? "message" = some (.string f.message)

theorem Failure.shownBy_toValue (f : Failure) : f.ShownBy f.toValue where
  size := ⟨_, rfl, (Entries.ofList_perm (by simp)).length_eq⟩
  passedData := Value.get?_ofEntries (by simp) _
  passedDataType := Value.get?_ofEntries (by simp) _
  expects := by
    refine (Value.get?_ofEntries (by simp) _).trans ?_
    rw [Value.strings, List.map_map]
    rfl
  message := Value.get?_ofEntries (by simp) _

namespace Report

/-! ## Look-ups settle a report -/

/-- Reports in which every look-up finds the same are the same. -/
theorem ext_failure? {r s : Report} (h : ∀ p, r.failure? p = s.failure? p) : r = s := by
  have hmem : ∀ entry, entry ∈ r.latestFirst ↔ entry ∈ s.latestFirst := by
    rintro ⟨p, f⟩
    have hr := r.failure?_eq_some_iff (p := p) (f := f)
    have hs := s.failure?_eq_some_iff (p := p) (f := f)
    rw [entries, List.mem_reverse] at hr hs
    rw [← hr, ← hs, h]
  have hnodup : ∀ t : Report, t.latestFirst.Nodup := fun t => t.decreasing.imp fun hlt heq => by simp [heq] at hlt
  have hperm : r.latestFirst.Perm s.latestFirst := (List.perm_ext_iff_of_nodup (hnodup r) (hnodup s)).2 hmem
  have heq : r.latestFirst = s.latestFirst :=
    hperm.eq_of_pairwise (fun _ _ _ _ hab hba => absurd hba (Nat.lt_asymm hab)) r.decreasing s.decreasing
  have hpassed : r.passed = s.passed := by rw [r.passed_eq, s.passed_eq, heq]
  cases r
  cases s
  cases heq
  cases hpassed
  rfl

/-- **Calls for different positions may change places.** -/
theorem record_comm (r : Report) {p q : Nat} (f g : Failure) (h : p ≠ q) :
    (r.record p f).record q g = (r.record q g).record p f := by
  refine ext_failure? fun x => ?_
  rw [failure?_record, failure?_record, failure?_record, failure?_record]
  by_cases hp : x = p
  · rw [if_pos hp, if_neg (hp ▸ h), if_pos hp]
  · rw [if_neg hp, if_neg hp]

/-! ## The last calls -/

/-- The last of the calls for the position is the one with the failure. -/
def LastCall (calls : List (Nat × Failure)) (p : Nat) (f : Failure) : Prop :=
  ∃ before after, calls = before ++ (p, f) :: after ∧ ∀ call ∈ after, call.1 ≠ p

section Calls

variable {calls : List (Nat × Failure)} {p : Nat} {f : Failure}

/-- A look-up finds what the last call for the position has recorded. -/
theorem failure?_recordAll_eq_some_iff : (empty.recordAll calls).failure? p = some f ↔ LastCall calls p f := by
  rw [failure?_recordAll, show empty.failure? p = none from rfl, Option.or_none, List.lookup_eq_some_iff]
  constructor
  · rintro ⟨after, before, hcalls, hafter⟩
    refine ⟨before.reverse, after.reverse, ?_, fun call hcall => ?_⟩
    · rw [← calls.reverse_reverse, hcalls]
      simp
    · exact fun heq => bne_iff_ne.1 (hafter call (List.mem_reverse.1 hcall)) heq.symm
  · rintro ⟨before, after, rfl, hafter⟩
    refine ⟨after.reverse, before.reverse, by simp, fun call hcall => ?_⟩
    exact bne_iff_ne.2 fun heq => hafter call (List.mem_reverse.1 hcall) heq.symm

/-- A look-up finds nothing when there was no call for the position. -/
theorem failure?_recordAll_eq_none_iff :
    (empty.recordAll calls).failure? p = none ↔ ∀ call ∈ calls, call.1 ≠ p := by
  rw [failure?_recordAll, show empty.failure? p = none from rfl, Option.or_none, List.lookup_eq_none_iff]
  simp only [List.mem_reverse, bne_iff_ne, ne_comm]

theorem mem_positions_recordAll : p ∈ (empty.recordAll calls).positions ↔ p ∈ calls.map (·.1) := by
  rw [mem_positions_iff, ← Option.ne_none_iff_exists', ne_eq, failure?_recordAll_eq_none_iff]
  simp

/-- As many positions have a failure as there are different ones among the calls. -/
theorem errorCount_recordAll : (empty.recordAll calls).errorCount = (calls.map (·.1)).toFinset.card := by
  have hpositions : (calls.map (·.1)).toFinset = (empty.recordAll calls).positions.toFinset := by
    ext p
    rw [List.mem_toFinset, List.mem_toFinset, mem_positions_recordAll]
  have hnodup : (empty.recordAll calls).positions.Nodup := (pairwise_positions _).imp Nat.ne_of_lt
  rw [errorCount_eq_length, hpositions, List.toFinset_card_of_nodup hnodup]

end Calls

/-! ## The value of a report -/

section Value

variable (r : Report)

/-- The entries on the failures, in the order of their keys. -/
def errorEntries : List (String × Value) :=
  Entries.ofList (r.entries.map fun e => (label e.1, e.2.toValue))

theorem get?_toValue_errors : r.toValue.get? "errors" = some (.object r.errorEntries) :=
  Value.get?_ofEntries (by simp) _

theorem errorEntries_perm : r.errorEntries.Perm (r.entries.map fun e => (label e.1, e.2.toValue)) :=
  Entries.ofList_perm r.nodup_toValue_keys

/-- Labels of different positions differ, so that no failure is lost. -/
theorem length_errorEntries : r.errorEntries.length = r.errorCount := by
  rw [r.errorEntries_perm.length_eq, List.length_map, errorCount_eq_length, positions, List.length_map]

theorem keys_errorEntries_perm : (r.errorEntries.map (·.1)).Perm (r.positions.map label) := by
  simpa [positions, Function.comp_def] using r.errorEntries_perm.map (·.1)

theorem find?_errorEntries {p : Nat} {f : Failure} (h : r.failure? p = some f) :
    Entries.find? r.errorEntries (label p) = some f.toValue := by
  rw [errorEntries, Entries.find?_ofList r.nodup_toValue_keys, Entries.find?,
    Entries.lookup_eq_some_iff r.nodup_toValue_keys]
  exact List.mem_map.2 ⟨(p, f), r.failure?_eq_some_iff.1 h, rfl⟩

end Value

/-! ## The log -/

/-- What a new report holds after calls of `record`. -/
structure KeyedLog (calls : List (Nat × Failure)) (r : Report) : Prop where
  recorded : ∀ p f, r.failure? p = some f ↔ LastCall calls p f
  missing : ∀ p, r.failure? p = none ↔ ∀ call ∈ calls, call.1 ≠ p
  errorCount : r.errorCount = (calls.map (·.1)).toFinset.card
  passed : r.passed = true ↔ calls = []
  /-- The messages are those of the last calls, by strictly increasing positions. -/
  messages : ∃ positions : List Nat, positions.Pairwise (· < ·) ∧ (∀ p, p ∈ positions ↔ p ∈ calls.map (·.1)) ∧
    List.Forall₂ (fun p message => ∃ f, LastCall calls p f ∧ message = f.message) positions r.messages
  /-- The value has an entry for each position with a failure, under a key of its own, and no other. -/
  value : ∃ errors, r.toValue.get? "errors" = some (.object errors) ∧ errors.length = r.errorCount ∧
    (errors.map (·.1)).Nodup ∧ (∀ key ∈ errors.map (·.1), ∃ p ∈ calls.map (·.1), key = "argument " ++ toString p) ∧
    ∀ p f, r.failure? p = some f → ∃ v, Value.get? (.object errors) ("argument " ++ toString p) = some v ∧ f.ShownBy v

theorem keyedLog (calls : List (Nat × Failure)) : KeyedLog calls (empty.recordAll calls) where
  recorded _ _ := failure?_recordAll_eq_some_iff
  missing _ := failure?_recordAll_eq_none_iff
  errorCount := errorCount_recordAll
  passed := by
    rw [passed_recordAll, show empty.passed = true from rfl, Bool.true_and, List.isEmpty_iff]
  messages := by
    refine ⟨(empty.recordAll calls).positions, pairwise_positions _, fun p => mem_positions_recordAll, ?_⟩
    rw [positions, Report.messages, List.forall₂_map_left_iff, List.forall₂_map_right_iff, List.forall₂_same]
    rintro ⟨p, f⟩ hentry
    exact ⟨f, failure?_recordAll_eq_some_iff.1 ((failure?_eq_some_iff _).2 hentry), rfl⟩
  value := by
    have hkeys := keys_errorEntries_perm (empty.recordAll calls)
    refine ⟨_, get?_toValue_errors _, length_errorEntries _, hkeys.nodup_iff.2 (nodup_labels _), ?_, ?_⟩
    · intro key hkey
      obtain ⟨p, hp, rfl⟩ := List.mem_map.1 (hkeys.mem_iff.1 hkey)
      exact ⟨p, mem_positions_recordAll.1 hp, rfl⟩
    · intro p f hf
      exact ⟨f.toValue, find?_errorEntries _ hf, f.shownBy_toValue⟩

/-- **A report is a log under positions**: each position has what the last call for it has recorded, whatever the order
of the calls for different positions. -/
theorem keyed_log : (∀ calls, KeyedLog calls (empty.recordAll calls)) ∧
    ∀ (r : Report) (p q : Nat) (f g : Failure), p ≠ q → (r.record p f).record q g = (r.record q g).record p f :=
  ⟨keyedLog, fun r _ _ f g => r.record_comm f g⟩

end Report

end CallContract
