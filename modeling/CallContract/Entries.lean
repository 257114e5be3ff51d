import Std.Data.HashMap

/-!
# Entries under text keys

An object is a list of entries whose keys increase. `Entries.ofList` brings any list into this form, the last entry
of a repeated key winning, and `Entries.index` answers many look-ups in one list.
-/

namespace CallContract.Entries

variable {α : Type}

/-- Keys increase strictly in the order of code points. -/
def Sorted (entries : List (String × α)) : Prop :=
  entries.Pairwise (·.1 < ·.1)

instance (entries : List (String × α)) : Decidable (Sorted entries) :=
  inferInstanceAs (Decidable (List.Pairwise _ _))

/-- Puts an entry in front unless its key is already the first one. -/
def consNew (entry : String × α) : List (String × α) → List (String × α)
  | [] => [entry]
  | next :: rest => if entry.1 = next.1 then next :: rest else entry :: next :: rest

/-- The entries in increasing order of their keys; of several entries under one key the last one stays. -/
def ofList (entries : List (String × α)) : List (String × α) :=
  (entries.mergeSort (fun a b => decide (a.1 ≤ b.1))).foldr consNew []

/-- The value under a key. -/
def find? (entries : List (String × α)) (key : String) : Option α :=
  entries.lookup key

/-- A table that answers like `find?`. -/
def index (entries : List (String × α)) : Std.HashMap String α :=
  entries.foldr (fun entry table => table.insert entry.1 entry.2) ∅

theorem getElem?_index (entries : List (String × α)) (key : String) :
    (index entries)[key]? = find? entries key := by
  induction entries with
  | nil => simp [index, find?]
  | cons entry rest ih =>
    obtain ⟨k, v⟩ := entry
    have h : index ((k, v) :: rest) = (index rest).insert k v := rfl
    rw [h, Std.HashMap.getElem?_insert, ih]
    by_cases hk : k = key
    · simp [find?, hk]
    · have hk' : (key == k) = false := by simpa using fun e => hk e.symm
      simp [find?, List.lookup_cons, hk, hk']

/-- Of increasing entries none repeats the key of the next. -/
theorem foldr_consNew_of_sorted {entries : List (String × α)} (h : Sorted entries) :
    entries.foldr consNew [] = entries := by
  induction h with
  | nil => rfl
  | @cons entry rest hfirst _ ih =>
    rw [List.foldr_cons, ih]
    cases rest with
    | nil => rfl
    | cons next rest =>
      have hne : entry.1 ≠ next.1 := String.ne_of_lt (hfirst next List.mem_cons_self)
      rw [consNew, if_neg hne]

/-- Increasing entries stay as they are. -/
theorem ofList_of_sorted {entries : List (String × α)} (h : Sorted entries) : ofList entries = entries := by
  have hle : entries.Pairwise fun a b => decide (a.1 ≤ b.1) = true :=
    h.imp fun hab => decide_eq_true (String.not_lt.1 (String.lt_asymm hab))
  rw [ofList, List.mergeSort_of_pairwise hle, foldr_consNew_of_sorted h]

/-- A value is smaller than the list of entries that holds it, which ends recursions over nested objects. -/
theorem sizeOf_snd_lt [SizeOf α] {entry : String × α} {entries : List (String × α)} (h : entry ∈ entries) :
    sizeOf entry.2 < sizeOf entries := by
  have h1 := List.sizeOf_lt_of_mem h
  have h2 : sizeOf entry = 1 + sizeOf entry.1 + sizeOf entry.2 := by cases entry; rfl
  omega

end CallContract.Entries
