import CallContract.Proofs.Entries
import CallContract.Report

/-!
# Reports through their entries

Every question about a report is a question about its entries in increasing positions: `failure?` finds exactly the
entries (`failure?_eq_some_iff`), `passed` says that there are none, `errorCount`, `positions` and `messages` list
them. Recording behind all positions appends an entry (`entries_record`). In any order of calls the last one for a
position decides what stands there (`failure?_recordAll`).
-/

namespace CallContract

namespace Report

/-- The positions with a failure, in increasing order. -/
def positions (r : Report) : List Nat :=
  r.entries.map (·.1)

variable (r : Report)

theorem pairwise_entries : r.entries.Pairwise (fun earlier later => earlier.1 < later.1) :=
  List.pairwise_reverse.2 r.decreasing

/-! ## Questions -/

theorem passed_iff : r.passed = true ↔ r.entries = [] := by
  rw [passed_eq, entries, List.isEmpty_iff, List.reverse_eq_nil_iff]

theorem errorCount_eq_length : r.errorCount = r.positions.length := by
  rw [positions, List.length_map, entries, List.length_reverse, errorCount]

theorem passed_iff_positions : r.passed = true ↔ r.positions = [] := by
  rw [passed_iff, positions, List.map_eq_nil_iff]

/-- A look-up finds exactly the entries. -/
theorem failure?_eq_some_iff {p : Nat} {f : Failure} : r.failure? p = some f ↔ (p, f) ∈ r.entries := by
  have h : (r.latestFirst.map (·.1)).Nodup :=
    List.pairwise_map.2 (r.decreasing.imp fun hlt => Nat.ne_of_gt hlt)
  rw [failure?, Entries.lookup_eq_some_iff h, entries, List.mem_reverse]

theorem passed_iff_failure? : r.passed = true ↔ ∀ p, r.failure? p = none := by
  rw [passed_iff, List.eq_nil_iff_forall_not_mem]
  constructor
  · intro h p
    rw [Option.eq_none_iff_forall_ne_some]
    exact fun f hf => h (p, f) (r.failure?_eq_some_iff.1 hf)
  · rintro h ⟨p, f⟩ hm
    exact nomatch (h p).symm.trans (r.failure?_eq_some_iff.2 hm)

theorem mem_positions_iff {p : Nat} : p ∈ r.positions ↔ ∃ f, r.failure? p = some f := by
  rw [positions, List.mem_map]
  constructor
  · rintro ⟨⟨_, f⟩, hf, rfl⟩
    exact ⟨f, r.failure?_eq_some_iff.2 hf⟩
  · rintro ⟨f, hf⟩
    exact ⟨(p, f), r.failure?_eq_some_iff.1 hf, rfl⟩

/-- The messages are those of the failures at the positions, in increasing order. -/
theorem messages_eq : r.messages.map some = r.positions.map (fun p => (r.failure? p).map (·.message)) := by
  rw [messages, positions, List.map_map, List.map_map]
  refine List.map_congr_left fun entry h => ?_
  rw [Function.comp_apply, Function.comp_apply, r.failure?_eq_some_iff.2 h, Option.map_some]

/-- The entry in front is the one at the least position. -/
theorem failure?_of_entries_cons {p : Nat} {f : Failure} {rest : List (Nat × Failure)}
    (h : r.entries = (p, f) :: rest) : r.failure? p = some f ∧ ∀ q < p, r.failure? q = none := by
  refine ⟨r.failure?_eq_some_iff.2 (h ▸ List.mem_cons_self), fun q hq => ?_⟩
  rw [Option.eq_none_iff_forall_ne_some]
  intro g hg
  have hm := r.failure?_eq_some_iff.1 hg
  have hpairwise := r.pairwise_entries
  rw [h] at hm hpairwise
  rcases List.mem_cons.1 hm with e | hrest
  · exact Nat.ne_of_lt hq (congrArg Prod.fst e)
  · exact Nat.lt_asymm hq ((List.pairwise_cons.1 hpairwise).1 _ hrest)

/-! ## Recording -/

/-- Recording behind all positions appends an entry. -/
theorem entries_record {p : Nat} (f : Failure) (h : ∀ entry ∈ r.entries, entry.1 < p) :
    (r.record p f).entries = r.entries ++ [(p, f)] := by
  have hinsert : insertDecreasing p f r.latestFirst = (p, f) :: r.latestFirst := by
    cases hl : r.latestFirst with
    | nil => rfl
    | cons entry rest =>
      have hlt : entry.1 < p := h entry (List.mem_reverse.2 (hl ▸ List.mem_cons_self))
      rw [insertDecreasing, if_pos hlt]
  show (insertDecreasing p f r.latestFirst).reverse = r.latestFirst.reverse ++ [(p, f)]
  rw [hinsert, List.reverse_cons]

/-- Recording changes its own position only. -/
theorem failure?_record (p q : Nat) (f : Failure) :
    (r.record p f).failure? q = if q = p then some f else r.failure? q := by
  show (insertDecreasing p f r.latestFirst).lookup q = if q = p then some f else r.latestFirst.lookup q
  fun_induction insertDecreasing p f r.latestFirst with
  | case1 => rw [Entries.lookup_cons_eq_ite]
  | case2 entry rest _ => rw [Entries.lookup_cons_eq_ite]
  | case3 entry rest _ heq =>
    rw [Entries.lookup_cons_eq_ite, Entries.lookup_cons_eq_ite, heq]
    grind
  | case4 entry rest _ hne ih =>
    rw [Entries.lookup_cons_eq_ite, Entries.lookup_cons_eq_ite, ih]
    grind

theorem passed_record (p : Nat) (f : Failure) : (r.record p f).passed = false := rfl

/-- The report after calls of `record`, in their order. -/
def recordAll (calls : List (Nat × Failure)) : Report :=
  calls.foldl (fun r call => r.record call.1 call.2) r

/-- **The last call for a position decides what is found there.** -/
theorem failure?_recordAll (calls : List (Nat × Failure)) (p : Nat) :
    (r.recordAll calls).failure? p = (calls.reverse.lookup p).or (r.failure? p) := by
  induction calls generalizing r with
  | nil => rfl
  | cons call calls ih =>
    show ((r.record call.1 call.2).recordAll calls).failure? p = _
    rw [ih, failure?_record, List.reverse_cons, List.lookup_append, Option.or_assoc]
    rw [Entries.lookup_cons_eq_ite]
    by_cases h : p = call.1 <;> simp [h]

/-- No call takes a failure away. -/
theorem passed_recordAll (calls : List (Nat × Failure)) :
    (r.recordAll calls).passed = (r.passed && calls.isEmpty) := by
  induction calls generalizing r with
  | nil => simp [recordAll]
  | cons call calls ih =>
    show ((r.record call.1 call.2).recordAll calls).passed = _
    rw [ih, passed_record]
    simp

end Report

end CallContract
