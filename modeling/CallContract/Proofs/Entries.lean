import CallContract.Entries

/-!
# Look-ups among entries

With distinct keys the order of entries does not matter: a look-up finds exactly the entries
(`lookup_eq_some_iff`), so it is the same in any order of them (`find?_of_perm`). Bringing them into the order of their
keys adds none (`ofList_subset`), and keeps them all where keys are distinct (`ofList_perm`, `sorted_ofList`).
-/

namespace CallContract.Entries

/-- In a list with distinct keys an entry is found under its key. -/
theorem lookup_eq_some_iff {κ α : Type} [BEq κ] [LawfulBEq κ] {key : κ} {x : α} {entries : List (κ × α)}
    (h : (entries.map (·.1)).Nodup) : entries.lookup key = some x ↔ (key, x) ∈ entries := by
  induction entries with
  | nil => simp
  | cons entry rest ih =>
    obtain ⟨k, y⟩ := entry
    rw [List.map_cons, List.nodup_cons] at h
    rw [List.lookup_cons, List.mem_cons, Prod.mk.injEq]
    by_cases hk : key = k
    · subst hk
      have hrest : (key, x) ∉ rest := fun hm => h.1 (List.mem_map_of_mem (f := (·.1)) hm)
      rw [beq_self_eq_true, Option.some.injEq]
      exact ⟨fun e => Or.inl ⟨rfl, e.symm⟩, fun hm => (hm.resolve_right hrest).2.symm⟩
    · rw [beq_false_of_ne hk]
      exact (ih h.2).trans ⟨Or.inr, fun hm => hm.resolve_left fun e => hk e.1⟩

theorem lookup_cons_eq_ite {κ α : Type} [DecidableEq κ] (p q : κ) (x : α) (entries : List (κ × α)) :
    List.lookup q ((p, x) :: entries) = if q = p then some x else entries.lookup q := by
  rw [List.lookup_cons]
  by_cases h : q = p
  · rw [if_pos h, beq_iff_eq.2 h]
  · rw [if_neg h, beq_false_of_ne h]

variable {α : Type} {entries : List (String × α)}

theorem foldr_consNew_subset (entries : List (String × α)) : entries.foldr consNew [] ⊆ entries := by
  induction entries with
  | nil => exact List.Subset.refl []
  | cons entry rest ih =>
    rw [List.foldr_cons]
    generalize rest.foldr consNew [] = kept at ih
    cases kept with
    | nil => simp [consNew]
    | cons next kept =>
      rw [consNew]
      split
      · exact List.subset_cons_of_subset entry ih
      · exact List.cons_subset_cons entry ih

/-- What is kept was there before, also where keys repeat. -/
theorem ofList_subset (entries : List (String × α)) : ofList entries ⊆ entries :=
  fun _ h => (List.mergeSort_perm entries _).mem_iff.1 (foldr_consNew_subset _ h)

/-- Sorting brings distinct keys into increasing order. -/
theorem sorted_mergeSort (distinct : (entries.map (·.1)).Nodup) :
    Sorted (entries.mergeSort fun a b => decide (a.1 ≤ b.1)) := by
  have hle : (entries.mergeSort fun a b => decide (a.1 ≤ b.1)).Pairwise fun a b => decide (a.1 ≤ b.1) = true := by
    refine List.pairwise_mergeSort (fun a b c hab hbc => ?_) (fun a b => ?_) entries
    · exact decide_eq_true (String.le_trans (of_decide_eq_true hab) (of_decide_eq_true hbc))
    · simpa using String.le_total a.1 b.1
  have hdistinct : ((entries.mergeSort fun a b => decide (a.1 ≤ b.1)).map (·.1)).Nodup :=
    ((List.mergeSort_perm entries _).map (·.1)).nodup_iff.2 distinct
  exact hle.imp₂ (fun _ _ hab hne => String.not_le.1 fun hba => hne (String.le_antisymm (of_decide_eq_true hab) hba))
    (List.pairwise_map.1 hdistinct)

/-- Of distinct keys none is dropped. -/
theorem ofList_eq_mergeSort (distinct : (entries.map (·.1)).Nodup) :
    ofList entries = entries.mergeSort fun a b => decide (a.1 ≤ b.1) :=
  foldr_consNew_of_sorted (sorted_mergeSort distinct)

/-- Entries with distinct keys are sorted and all kept. -/
theorem ofList_perm (distinct : (entries.map (·.1)).Nodup) : (ofList entries).Perm entries := by
  rw [ofList_eq_mergeSort distinct]
  exact List.mergeSort_perm entries _

theorem sorted_ofList (distinct : (entries.map (·.1)).Nodup) : Sorted (ofList entries) := by
  rw [ofList_eq_mergeSort distinct]
  exact sorted_mergeSort distinct

/-- The order of entries with distinct keys changes no look-up. -/
theorem find?_of_perm {entries' : List (String × α)} (hperm : entries'.Perm entries)
    (distinct : (entries.map (·.1)).Nodup) (key : String) : find? entries' key = find? entries key := by
  have hdistinct : (entries'.map (·.1)).Nodup := (hperm.map (·.1)).nodup_iff.2 distinct
  refine Option.ext fun x => ?_
  rw [find?, find?, lookup_eq_some_iff hdistinct, lookup_eq_some_iff distinct, hperm.mem_iff]

/-- Sorting entries with distinct keys changes no look-up. -/
theorem find?_ofList (distinct : (entries.map (·.1)).Nodup) (key : String) :
    find? (ofList entries) key = find? entries key :=
  find?_of_perm (ofList_perm distinct) distinct key

end CallContract.Entries
